import KacheDB.AsyncStream

/-!
# Pipelines

`Pipeline.execute` and `AsyncPipeline.execute` send all queued commands at once and read as
many replies, and the first reply that gives no value ends the loop.  The connection is not
given up then.

`collect_unread` says what the loop leaves on the wire: nothing up to the first reply without a
value, then the rest of that reply and all later ones.  The results about both pipelines follow
from it.
-/

namespace KacheDB

open Foundation

/-! ## The loop -/

/-- `for _ in range(count): results.append(read())`. -/
def collect {σ : Type} (read : σ → Except Exc RespValue × σ) :
    ℕ → σ → Except Exc (List RespValue) × σ
  | 0, s => (.ok [], s)
  | count + 1, s =>
    match read s with
    | (.error e, s') => (.error e, s')
    | (.ok v, s') =>
      match collect read count s' with
      | (.ok vs, s'') => (.ok (v :: vs), s'')
      | (.error e, s'') => (.error e, s'')

/-! ## The synchronous pipeline -/

/-- A pipeline: its connection `_conn` and the queued commands `_commands`. -/
structure Pipeline where
  conn : Connection
  commands : List (List Arg)

namespace Pipeline

/-- Queue a command for later execution. -/
def queue (p : Pipeline) (args : List Arg) : Pipeline :=
  { p with commands := p.commands ++ [args] }

/-- Send all queued commands and collect responses. -/
def execute (limit : ℕ) (p : Pipeline) (x : Exchange) :
    Except Exc (List RespValue) × Pipeline :=
  if p.commands.isEmpty then (.ok [], p)
  else
    let packed := encodeCommands p.commands
    let count := p.commands.length
    match p.conn.sendPacked packed x with
    | (.error e, conn) => (.error e, ⟨conn, []⟩)
    | (.ok (), conn) =>
      let (results, conn') := collect (Connection.readResponse limit) count conn
      (results, ⟨conn', []⟩)

end Pipeline

/-! ## The asynchronous pipeline -/

/-- A pipeline on the writer and the reader of an asyncio stream. -/
structure AsyncPipeline where
  stream : AsyncStream
  commands : List (List Arg)

namespace AsyncPipeline

/-- Queue a command for later execution. -/
def queue (p : AsyncPipeline) (args : List Arg) : AsyncPipeline :=
  { p with commands := p.commands ++ [args] }

/-- Send all queued commands and collect responses. -/
def execute (limit : ℕ) (p : AsyncPipeline) (x : Exchange) :
    Except Exc (List RespValue) × AsyncPipeline :=
  if p.commands.isEmpty then (.ok [], p)
  else
    let packed := encodeCommands p.commands
    let count := p.commands.length
    match p.stream.writeDrain packed x with
    | (.error e, stream) => (.error e, ⟨stream, []⟩)
    | (.ok (), stream) =>
      let (results, stream') := collect (AsyncStream.readResponse limit) count stream
      (results, ⟨stream', []⟩)

end AsyncPipeline

/-! ## What the loop leaves on the wire -/

namespace Reply

/-- What is left of consecutive replies when reading stops at the first one that gives no
value. -/
def unreadFrames (limit : ℕ) (decodeResponses : Bool) : List Reply → Bytes
  | [] => []
  | r :: rs =>
    match r.decoded limit decodeResponses with
    | .ok _ => unreadFrames limit decodeResponses rs
    | .error _ => r.leftover limit ++ encodeList rs

/-- Every frame before the last one gives a value, and the last one leaves nothing behind. -/
def OnlyLastFails (limit : ℕ) (decodeResponses : Bool) (frames : List Reply) : Prop :=
  (∀ r ∈ frames.dropLast, ∃ v, r.decoded limit decodeResponses = .ok v) ∧
    ∀ r, frames.getLast? = some r → r.Clean limit

/-- Without decoding a reply gives its own value. -/
lemma decoded_false (limit : ℕ) (r : Reply) : r.decoded limit false = r.outcome limit := by
  unfold decoded
  cases r.outcome limit <;> rfl

/-- A reply that gives a value leaves nothing behind. -/
lemma clean_of_decoded {limit : ℕ} {d : Bool} {r : Reply} {v : RespValue}
    (h : r.decoded limit d = .ok v) : r.Clean limit := by
  unfold decoded at h
  cases hout : r.outcome limit with
  | ok w => exact clean_of_isValue ⟨w, hout⟩
  | error e => simp [hout, Except.bind] at h

/-- Nothing is left exactly when only the last frame fails, and cleanly. -/
lemma unreadFrames_eq_nil_iff {limit : ℕ} {d : Bool} {frames : List Reply} (hne : frames ≠ []) :
    unreadFrames limit d frames = [] ↔ OnlyLastFails limit d frames := by
  induction frames with
  | nil => exact absurd rfl hne
  | cons r rs ih =>
    rcases rs with _ | ⟨r', rs⟩
    · cases hd : r.decoded limit d with
      | ok v => simp [unreadFrames, OnlyLastFails, hd, clean_of_decoded hd]
      | error e => simp [unreadFrames, OnlyLastFails, hd, encodeList, Clean]
    · cases hd : r.decoded limit d with
      | ok v =>
        have hstep : unreadFrames limit d (r :: r' :: rs) = unreadFrames limit d (r' :: rs) := by
          rw [unreadFrames, hd]
        rw [hstep, ih (by simp)]
        simp [OnlyLastFails, hd]
      | error e => simp [unreadFrames, OnlyLastFails, hd, encodeList, encode_ne_nil]

end Reply

/-- The loop over a reader that reads frame by frame leaves `unreadFrames` unread. -/
lemma collect_unread {σ : Type} {read : σ → Except Exc RespValue × σ} {Unread : σ → Bytes → Prop}
    {limit : ℕ} {d : Bool}
    (hread : ∀ s (r : Reply) rest, Unread s (r.encode ++ rest) →
      (read s).1 = r.decoded limit d ∧ Unread (read s).2 (r.leftover limit ++ rest))
    (frames : List Reply) {s : σ} (h : Unread s (Reply.encodeList frames)) :
    Unread (collect read frames.length s).2 (Reply.unreadFrames limit d frames) := by
  induction frames generalizing s with
  | nil => exact h
  | cons r rs ih =>
    obtain ⟨hres, hleft⟩ := hread s r _ h
    rw [Reply.unreadFrames, List.length_cons, collect]
    rcases hs : read s with ⟨e | v, s'⟩
    · simp only [hs] at hres hleft
      rw [← hres]
      exact hleft
    · simp only [hs] at hres hleft
      have hclean : r.leftover limit = [] := Reply.clean_of_decoded hres.symm
      rw [hclean] at hleft
      have hrest := ih hleft
      rw [← hres]
      rcases hc : collect read rs.length s' with ⟨_ | _, s''⟩ <;> simpa only [hc] using hrest

/-! ## What a pipeline leaves on its connection -/

namespace Connection

/-- Either the connection has been disconnected or no reply is unread on it; hence the next
command on it returns the reply to itself. -/
def Aligned (limit : ℕ) (c : Connection) : Prop :=
  (∀ s, c.sock = some s → s.unread = []) ∧
    ∀ args x reply, x.Answers reply → ∀ v, (c.roundTrip limit args x).1 = .ok v →
      reply.decoded limit c.decodeResponses = .ok v

/-- An open connection is aligned exactly when nothing is unread on it. -/
lemma Holds.aligned_iff {d : Bool} {c : Connection} {unread : Bytes} (hc : c.Holds d unread)
    (limit : ℕ) : c.Aligned limit ↔ unread = [] := by
  obtain ⟨-, s, hs, hholds⟩ := hc
  constructor
  · intro h
    rw [← hholds.unread_eq]
    exact h.1 s hs
  · rintro rfl
    have hsettled : c.Settled := by
      intro s' hs'
      exact Option.some.inj (hs ▸ hs') ▸ hholds.settled
    refine ⟨fun s' hs' => (hsettled s' hs').unread_eq_nil, ?_⟩
    intro args x reply hx v hv
    rcases roundTrip_spec limit args hsettled hx with ⟨w, hw, hdec, -⟩ | ⟨e, he, -⟩
    · rw [hdec, ← hw, hv]
    · rw [he] at hv
      cases hv

end Connection

namespace AsyncStream

/-- Either the transport is closing or no reply is unread on it; hence the next command on it
returns the reply to itself. -/
def Aligned (limit : ℕ) (s : AsyncStream) : Prop :=
  (s.closing = true ∨ s.socket.unread = []) ∧
    ∀ args x reply, x.Answers reply → ∀ v, (s.roundTrip limit args x).1 = .ok v →
      reply.outcome limit = .ok v

/-- An open stream is aligned exactly when nothing is unread on it. -/
lemma Holds.aligned_iff {s : AsyncStream} {unread : Bytes} (hs : s.Holds unread) (limit : ℕ) :
    s.Aligned limit ↔ unread = [] := by
  constructor
  · intro h
    rw [← hs.2.unread_eq]
    exact h.1.resolve_left (by simp [hs.1])
  · rintro rfl
    refine ⟨.inr hs.2.unread_eq, ?_⟩
    intro args x reply hx v hv
    rcases hrt : s.roundTrip limit args x with ⟨res, s'⟩
    rw [hrt] at hv
    obtain rfl : res = .ok v := hv
    exact (hs.roundTrip_ok hx.conforms hrt).1

end AsyncStream

/-- What `Pipeline.execute` leaves on its connection. -/
lemma Pipeline.execute_holds (limit : ℕ) {d : Bool} {p : Pipeline} {x : Exchange}
    {frames : List Reply} (hp : p.conn.Holds d []) (hlen : frames.length = p.commands.length)
    (hne : p.commands ≠ []) (hx : x.Delivers frames) :
    (p.execute limit x).2.conn.Holds d (Reply.unreadFrames limit d frames) := by
  obtain ⟨conn, hsend, hconn⟩ := hp.sendAll "sending data to" (encodeCommands p.commands) hx
  have hempty : p.commands.isEmpty = false := by simpa using hne
  simp only [Pipeline.execute, Connection.sendPacked, hempty, hsend, ← hlen]
  have hread : ∀ (c : Connection) (r : Reply) rest, c.Holds d (r.encode ++ rest) →
      (c.readResponse limit).1 = r.decoded limit d ∧
        (c.readResponse limit).2.Holds d (r.leftover limit ++ rest) :=
    fun _ _ _ hc => hc.readResponse limit
  exact collect_unread hread frames hconn

/-- What `AsyncPipeline.execute` leaves on its stream. -/
lemma AsyncPipeline.execute_holds (limit : ℕ) {p : AsyncPipeline} {x : Exchange}
    {frames : List Reply} (hp : p.stream.Holds []) (hlen : frames.length = p.commands.length)
    (hne : p.commands ≠ []) (hx : x.Delivers frames) :
    (p.execute limit x).2.stream.Holds (Reply.unreadFrames limit false frames) := by
  have hempty : p.commands.isEmpty = false := by simpa using hne
  obtain ⟨stream, hwrite, hstream⟩ := hp.writeDrain (encodeCommands p.commands) hx
  simp only [AsyncPipeline.execute, hempty, hwrite, ← hlen]
  have hread : ∀ (s : AsyncStream) (r : Reply) rest, s.Holds (r.encode ++ rest) →
      (s.readResponse limit).1 = r.decoded limit false ∧
        (s.readResponse limit).2.Holds (r.leftover limit ++ rest) :=
    fun _ r _ hs => r.decoded_false limit ▸ hs.readResponse limit
  exact collect_unread hread frames hstream

/-- **Pipeline alignment.**  A non-empty pipeline on a connection with nothing unread leaves
the connection disconnected or with nothing unread, so that the next command gets the reply to
itself, exactly when every frame before the last one gives a value and the last one leaves
nothing of itself behind.  The same holds of the asynchronous pipeline. -/
theorem Pipeline.execute_aligned_iff (limit : ℕ) (commands : List (List Arg))
    (hne : commands ≠ []) (frames : List Reply) (hlen : frames.length = commands.length)
    (x : Exchange) (hx : x.Delivers frames) :
    (∀ (d : Bool) (conn : Connection), conn.Holds d [] →
      ((Pipeline.execute limit ⟨conn, commands⟩ x).2.conn.Aligned limit ↔
        Reply.OnlyLastFails limit d frames)) ∧
    ∀ stream : AsyncStream, stream.Holds [] →
      ((AsyncPipeline.execute limit ⟨stream, commands⟩ x).2.stream.Aligned limit ↔
        Reply.OnlyLastFails limit false frames) := by
  have hframes : frames ≠ [] := by
    rintro rfl
    exact hne (List.length_eq_zero_iff.mp hlen.symm)
  constructor
  · intro d conn hconn
    have hp : (⟨conn, commands⟩ : Pipeline).conn.Holds d [] := hconn
    rw [(Pipeline.execute_holds limit hp hlen hne hx).aligned_iff,
      Reply.unreadFrames_eq_nil_iff hframes]
  · intro stream hstream
    have hp : (⟨stream, commands⟩ : AsyncPipeline).stream.Holds [] := hstream
    rw [(AsyncPipeline.execute_holds limit hp hlen hne hx).aligned_iff,
      Reply.unreadFrames_eq_nil_iff hframes]

/-- An exchange that answers two commands with two integers. -/
theorem Pipeline.execute_aligned_iff_two :
    ((Pipeline.execute 1 ⟨⟨"127.0.0.1", 6379, true, some .opened⟩,
        [[.str "INCR", .str "a"], [.str "INCR", .str "b"]]⟩
        ⟨.ok (), [.chunk ⟨[58, 52, 13, 10, 58], by decide⟩,
          .chunk ⟨[53, 13, 10], by decide⟩]⟩).2.conn.Aligned 1 ↔
      Reply.OnlyLastFails 1 true [.integer 4, .integer 5]) :=
  (execute_aligned_iff 1 [[.str "INCR", .str "a"], [.str "INCR", .str "b"]] (by simp)
    [.integer 4, .integer 5] rfl _ ⟨rfl, by simp [Feed.Quiet], by decide⟩).1 true _
      (Connection.holds_opened "127.0.0.1" 6379 true)

/-! ### An error reply in front of another reply -/

/-- The status line `ERR`. -/
def errLine : Line :=
  ⟨[69, 82, 82], by decide⟩

/-- The bytes of an error reply and of the integer 5, in one chunk. -/
def errorThenFive : Exchange :=
  ⟨.ok (), [.chunk ⟨[45, 69, 82, 82, 13, 10, 58, 53, 13, 10], by decide⟩]⟩

/-- An error reply gives no value. -/
lemma Reply.decoded_error (limit : ℕ) (d : Bool) (line : Line) :
    ∃ e, (Reply.error line).decoded (limit + 1) d = .error e := by
  unfold decoded outcome
  cases lineText line <;> exact ⟨_, rfl⟩

lemma errorThenFive_delivers : errorThenFive.Delivers [.error errLine, .integer 5] where
  sent := rfl
  quiet := by simp [Feed.Quiet, errorThenFive]
  data_eq := by decide

/-- After an error reply in front of another reply the pipeline leaves that reply on the open
connection, and the next command, whose own reply is 7, is answered with it. -/
theorem Pipeline.execute_not_aligned :
    (¬ (Pipeline.execute 2 ⟨⟨"127.0.0.1", 6379, false, some .opened⟩,
        [[.str "INCR", .str "a"], [.str "INCR", .str "b"]]⟩ errorThenFive).2.conn.Aligned 2) ∧
    (¬ (AsyncPipeline.execute 2 ⟨⟨.opened, false⟩,
        [[.str "INCR", .str "a"], [.str "INCR", .str "b"]]⟩ errorThenFive).2.stream.Aligned 2) ∧
    ((Pipeline.execute 2 ⟨⟨"127.0.0.1", 6379, false, some .opened⟩,
        [[.str "INCR", .str "a"], [.str "INCR", .str "b"]]⟩ errorThenFive).2.conn.roundTrip 2
        [.str "INCR", .str "c"] ⟨.ok (), [.chunk ⟨[58, 55, 13, 10], by decide⟩]⟩).1 =
      .ok (.int 5) := by
  have hleft : Reply.unreadFrames 2 false [.error errLine, .integer 5] =
      (Reply.integer 5).encode ++ [] := by
    obtain ⟨e, he⟩ := Reply.decoded_error 1 false errLine
    simp [Reply.unreadFrames, he, Reply.encodeList, Reply.leftover]
  have hsync : (⟨⟨"127.0.0.1", 6379, false, some .opened⟩,
      [[.str "INCR", .str "a"], [.str "INCR", .str "b"]]⟩ : Pipeline).conn.Holds false [] :=
    Connection.holds_opened "127.0.0.1" 6379 false
  have hasync : (⟨⟨.opened, false⟩,
      [[.str "INCR", .str "a"], [.str "INCR", .str "b"]]⟩ : AsyncPipeline).stream.Holds [] :=
    ⟨rfl, Socket.holds_opened⟩
  have hconn := execute_holds 2 hsync rfl (by simp) errorThenFive_delivers
  have hstream := AsyncPipeline.execute_holds 2 hasync rfl (by simp) errorThenFive_delivers
  rw [hleft] at hconn hstream
  refine ⟨?_, ?_, ?_⟩
  · rw [hconn.aligned_iff]
    simp [Reply.encode_ne_nil]
  · rw [hstream.aligned_iff]
    simp [Reply.encode_ne_nil]
  · have hseven : Exchange.Delivers ⟨.ok (), [.chunk ⟨[58, 55, 13, 10], by decide⟩]⟩
        [.integer 7] := ⟨rfl, by simp [Feed.Quiet], by decide⟩
    exact hconn.roundTrip 2 _ hseven

end KacheDB
