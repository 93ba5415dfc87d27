import KacheDB.Connection

/-!
# An asyncio stream

The reader and the writer of an asyncio stream with the RESP reader on it.  The asynchronous
client, its pool and its pipeline pass the three around together.  Here a task runs without a
switch to another one; an await is a read of the feed or a `drain`, and a cancellation is an
interruption like any other.
-/

namespace KacheDB

open Foundation

/-- The two ends of an asyncio stream with the RESP reader on it: a socket, and whether
`writer.is_closing()`.  A transport that has failed is closing. -/
structure AsyncStream where
  socket : Socket
  closing : Bool

namespace AsyncStream

/-- Whether a failed operation has closed the transport. -/
def closedBy {α : Type} : Except Exc α → Bool
  | .ok _ => false
  | .error e => e.isOSError

/-- `writer.write(data)` and then `await writer.drain()`: the data is written even if `drain`
raises. -/
def writeDrain (s : AsyncStream) (data : Bytes) (x : Exchange) :
    Except Exc Unit × AsyncStream :=
  (x.sendOutcome, ⟨s.socket.write data x.events, s.closing || closedBy x.sendOutcome⟩)

/-- `await resp_reader.read_response()`. -/
def readResponse (limit : ℕ) (s : AsyncStream) : Except Exc RespValue × AsyncStream :=
  match AsyncRespReader.readResponse limit s.socket.reader s.socket.feed with
  | (res, reader, feed) =>
    (res, ⟨{ s.socket with reader := reader, feed := feed }, s.closing || closedBy res⟩)

/-- A stream just opened. -/
def opened : AsyncStream :=
  ⟨.opened, false⟩

/-- `write`, `drain` and then the read of one reply, as a command does them. -/
def roundTrip (limit : ℕ) (s : AsyncStream) (args : List Arg) (x : Exchange) :
    Except Exc RespValue × AsyncStream :=
  match s.writeDrain (encodeCommand args) x with
  | (.ok (), s') => s'.readResponse limit
  | (.error e, s') => (.error e, s')

/-- The same as a read from the socket. -/
lemma readResponse_eq (limit : ℕ) (s : AsyncStream) :
    s.readResponse limit = ((s.socket.read limit).1,
      ⟨(s.socket.read limit).2, s.closing || closedBy (s.socket.read limit).1⟩) := rfl

/-! ## Answers that arrive in full -/

/-- The transport is open, with exactly these bytes unread. -/
def Holds (s : AsyncStream) (unread : Bytes) : Prop :=
  s.closing = false ∧ s.socket.Holds unread

/-- Reading a frame from a stream that holds it. -/
lemma Holds.readResponse {s : AsyncStream} {r : Reply} {rest : Bytes}
    (hs : s.Holds (r.encode ++ rest)) (limit : ℕ) :
    (s.readResponse limit).1 = r.outcome limit ∧
      (s.readResponse limit).2.Holds (r.leftover limit ++ rest) := by
  obtain ⟨hres, hholds⟩ := hs.2.read limit
  rw [readResponse_eq]
  refine ⟨hres, ?_, hholds⟩
  cases hread : (s.socket.read limit).1 with
  | ok v => simp [closedBy, hs.1]
  | error e =>
    have herr := (Socket.read_error hread).resolve_right (hs.2.quiet e)
    simp [closedBy, hs.1, herr.2]

/-- A command that returns a value on a stream with nothing unread returns the value of its
own reply, whatever interruptions its reads may meet; the reply has then arrived in full, and
nothing is unread again. -/
lemma Holds.roundTrip_ok {s s' : AsyncStream} (hs : s.Holds []) {limit : ℕ} {args : List Arg}
    {x : Exchange} {reply : Reply} (hx : respBuffer.data x.events <+: reply.encode)
    {v : RespValue} (h : s.roundTrip limit args x = (.ok v, s')) :
    reply.outcome limit = .ok v ∧ respBuffer.data x.events = reply.encode ∧
      (x.events.Quiet → s'.Holds []) := by
  obtain ⟨missing, hmissing⟩ := hx
  have hok : respBuffer.Ok (s.socket.write (encodeCommand args) x.events).reader := hs.2.ok
  have hp : (s.socket.write (encodeCommand args) x.events).unread ++ missing =
      reply.encode ++ [] := by
    rw [Socket.unread_write, hs.2.unread_eq, List.nil_append, hmissing, List.append_nil]
  obtain ⟨hok', hcase⟩ := @Socket.read_spec _ limit reply missing [] hok hp
  unfold AsyncStream.roundTrip AsyncStream.writeDrain at h
  cases hsend : x.sendOutcome with
  | error e =>
    rw [hsend] at h
    cases h
  | ok _ =>
    simp only [hsend, readResponse_eq, Prod.mk.injEq] at h
    obtain ⟨hres, rfl⟩ := h
    rw [hres] at hcase ⊢
    rcases hcase with ⟨hout, hleft, hsuf⟩ | ⟨e, he, -⟩
    · have hclean : reply.leftover limit = [] := Reply.clean_of_isValue ⟨v, hout.symm⟩
      rw [hclean] at hleft
      obtain ⟨hunread, rfl⟩ := List.append_eq_nil_iff.mp hleft
      refine ⟨hout.symm, by simpa using hmissing, fun hq => ?_⟩
      refine ⟨by simp [closedBy, hs.1], hok', fun e he => ?_, hunread⟩
      rcases List.mem_append.mp (hsuf.subset he) with he | he
      · exact hs.2.quiet e he
      · exact hq e he
    · cases he

/-- A command that is answered in full on a stream that holds bytes unread. -/
lemma Holds.writeDrain {s : AsyncStream} {unread : Bytes} (hs : s.Holds unread) (data : Bytes)
    {x : Exchange} {frames : List Reply} (hx : x.Delivers frames) :
    ∃ s', s.writeDrain data x = (.ok (), s') ∧ s'.Holds (unread ++ Reply.encodeList frames) := by
  refine ⟨⟨s.socket.write data x.events, false⟩, ?_, rfl, hs.2.write data hx⟩
  simp [AsyncStream.writeDrain, closedBy, hs.1, hx.sent]

/-- A command on a stream with nothing unread is answered with its own reply, and what the
reply leaves stays unread. -/
lemma Holds.roundTrip_own {s : AsyncStream} {r : Reply} (hs : s.Holds []) (limit : ℕ)
    (args : List Arg) {x : Exchange} (hx : x.Delivers [r]) :
    (s.roundTrip limit args x).1 = r.outcome limit ∧
      (s.roundTrip limit args x).2.Holds (r.leftover limit) := by
  obtain ⟨s', hwrite, hs'⟩ := hs.writeDrain (encodeCommand args) hx
  rw [List.nil_append, Reply.encodeList, Reply.encodeList] at hs'
  simp only [AsyncStream.roundTrip, hwrite]
  simpa using hs'.readResponse limit

/-- The next command on a stream that holds a frame is answered with that frame. -/
lemma Holds.roundTrip {s : AsyncStream} {r : Reply} {rest : Bytes}
    (hs : s.Holds (r.encode ++ rest)) (limit : ℕ) (args : List Arg) {x : Exchange}
    {frames : List Reply} (hx : x.Delivers frames) :
    (s.roundTrip limit args x).1 = r.outcome limit ∧
      (s.roundTrip limit args x).2.Holds
        (r.leftover limit ++ (rest ++ Reply.encodeList frames)) := by
  obtain ⟨s', hwrite, hs'⟩ := hs.writeDrain (encodeCommand args) hx
  rw [List.append_assoc] at hs'
  simp only [AsyncStream.roundTrip, hwrite]
  exact hs'.readResponse limit

end AsyncStream

end KacheDB
