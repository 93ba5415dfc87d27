import KacheDB.ClientModes
import KacheDB.PipelineMethods
import KacheDB.Resp.ErrorReplies

/-!
# Decoded responses

With `decode_responses` set, `Connection.read_response` and `AsyncKacheClient._execute` decode a
response that is a byte string.  They do not look into arrays: `decodesWhole_iff` says that a
reply is decoded as a whole exactly if it is no array with a bulk string in it.

An asynchronous pipeline reads its responses without the client and so without decoding them:
`pipelinesAgree_iff`.
-/

namespace KacheDB

open Foundation

/-! ## Values of replies -/

namespace RespValue

mutual

/-- There is a byte string in the value. -/
def hasBytes : RespValue → Bool
  | .bytes _ => true
  | .list items => hasBytesList items
  | _ => false

/-- There is a byte string in one of the values. -/
def hasBytesList : List RespValue → Bool
  | [] => false
  | v :: vs => v.hasBytes || hasBytesList vs

end

end RespValue

namespace Reply

mutual

/-- There is a bulk string in the reply. -/
def hasBulk : Reply → Bool
  | .bulk _ => true
  | .array items => hasBulkList items
  | _ => false

/-- There is a bulk string in one of the replies. -/
def hasBulkList : List Reply → Bool
  | [] => false
  | r :: rs => r.hasBulk || hasBulkList rs

end

/-- The reply is an array with a bulk string in it, at whatever depth. -/
def nestedBulk : Reply → Bool
  | .array items => hasBulkList items
  | _ => false

/-- The reply is a bulk string. -/
def isBulk : Reply → Bool
  | .bulk _ => true
  | _ => false

mutual

/-- Every bulk string of the reply is UTF-8. -/
def bulksUtf8 : Reply → Bool
  | .bulk data => (decodeUtf8 data).isSome
  | .array items => bulksUtf8List items
  | _ => true

/-- Every bulk string of the replies is UTF-8. -/
def bulksUtf8List : List Reply → Bool
  | [] => true
  | r :: rs => r.bulksUtf8 && bulksUtf8List rs

end

mutual

/-- The reply tree as a value, with `f` of the data for each bulk string. -/
def tree (f : Bytes → RespValue) : Reply → RespValue
  | .simple line => .str ((decodeUtf8 line.bytes).getD "")
  | .integer n => .int n
  | .bulk data => f data
  | .array items => .list (treeList f items)
  | _ => .none

/-- The same for each of the replies. -/
def treeList (f : Bytes → RespValue) : List Reply → List RespValue
  | [] => []
  | r :: rs => r.tree f :: treeList f rs

end

/-- The text of a bulk string. -/
def bulkText (data : Bytes) : RespValue :=
  .str ((decodeUtf8 data).getD "")

mutual

/-- A well-formed reply without errors is read as its tree, with byte strings. -/
theorem outcome_eq_tree : ∀ (r : Reply) (limit : ℕ), r.wellFormed = true → r.hasError = false →
    r.depth ≤ limit → r.outcome limit = .ok (r.tree .bytes)
  | r, 0, _, _, h => by cases r <;> simp [depth] at h
  | .simple line, limit + 1, hwf, _, _ => by
    obtain ⟨s, hs⟩ := Option.isSome_iff_exists.mp (by simpa [wellFormed] using hwf)
    simp [outcome, lineText, hs, Except.map, tree]
  | .error line, limit + 1, _, herr, _ => by simp [hasError] at herr
  | .integer n, limit + 1, _, _, _ => rfl
  | .bulk data, limit + 1, _, _, _ => rfl
  | .nullBulk, limit + 1, _, _, _ => rfl
  | .nullArray, limit + 1, _, _, _ => rfl
  | .null, limit + 1, _, _, _ => rfl
  | .array items, limit + 1, hwf, herr, h => by
    have hlist := outcomeList_eq_treeList items limit (by simpa [wellFormed] using hwf)
      (by simpa [hasError] using herr) (by simpa [depth] using h)
    rw [outcome, hlist, tree]
    rfl
  | .foreign _ _, _ + 1, hwf, _, _ => by simp [wellFormed] at hwf

/-- The same for the items of an array. -/
theorem outcomeList_eq_treeList : ∀ (rs : List Reply) (limit : ℕ), wellFormedList rs = true →
    hasErrorList rs = false → depthList rs ≤ limit →
      outcomeList limit rs = .ok (treeList .bytes rs)
  | [], limit, _, _, _ => by rw [outcomeList, treeList]
  | r :: rs, limit, hwf, herr, h => by
    rw [depthList, max_le_iff] at h
    rw [wellFormedList, Bool.and_eq_true] at hwf
    rw [hasErrorList, Bool.or_eq_false_iff] at herr
    have hr := outcome_eq_tree r limit hwf.1 herr.1 h.1
    have hrs := outcomeList_eq_treeList rs limit hwf.2 herr.2 h.2
    rw [outcomeList_cons_of_ok hr, hrs, treeList]
    rfl

end

mutual

/-- Without bulk strings it does not matter what stands for them. -/
theorem tree_of_not_hasBulk (f g : Bytes → RespValue) : ∀ r : Reply, r.hasBulk = false →
    r.tree f = r.tree g
  | .bulk data, h => by simp [hasBulk] at h
  | .array items, h => by
    rw [tree, tree, treeList_of_not_hasBulk f g items (by simpa [hasBulk] using h)]
  | .simple _, _ | .error _, _ | .integer _, _ | .nullBulk, _ | .nullArray, _ | .null, _
  | .foreign _ _, _ => by simp only [tree]

/-- The same for several replies. -/
theorem treeList_of_not_hasBulk (f g : Bytes → RespValue) : ∀ rs : List Reply,
    hasBulkList rs = false → treeList f rs = treeList g rs
  | [], _ => by simp only [treeList]
  | r :: rs, h => by
    rw [hasBulkList, Bool.or_eq_false_iff] at h
    rw [treeList, treeList, tree_of_not_hasBulk f g r h.1, treeList_of_not_hasBulk f g rs h.2]

end

mutual

/-- The byte strings of the tree are those that stand for bulk strings. -/
theorem hasBytes_tree (f : Bytes → RespValue) (b : Bool) (hf : ∀ data, (f data).hasBytes = b) :
    ∀ r : Reply, (r.tree f).hasBytes = (b && r.hasBulk)
  | .bulk data => by simp [tree, hasBulk, hf]
  | .array items => by
    rw [tree, hasBulk, RespValue.hasBytes, hasBytesList_treeList f b hf items]
  | .simple _ | .error _ | .integer _ | .nullBulk | .nullArray | .null | .foreign _ _ => by
    simp [tree, hasBulk, RespValue.hasBytes]

/-- The same for several replies. -/
theorem hasBytesList_treeList (f : Bytes → RespValue) (b : Bool)
    (hf : ∀ data, (f data).hasBytes = b) :
    ∀ rs : List Reply, RespValue.hasBytesList (treeList f rs) = (b && hasBulkList rs)
  | [] => by simp [treeList, hasBulkList, RespValue.hasBytesList]
  | r :: rs => by
    rw [treeList, hasBulkList, RespValue.hasBytesList, hasBytes_tree f b hf r,
      hasBytesList_treeList f b hf rs, Bool.and_or_distrib_left]

end

/-- The text tree has no byte strings. -/
lemma hasBytes_tree_bulkText (r : Reply) : (r.tree bulkText).hasBytes = false := by
  rw [hasBytes_tree bulkText false (fun _ => rfl), Bool.false_and]

/-- Decoding the value of a reply gives the text tree exactly if no bulk string is nested. -/
lemma decodeResponse_tree {r : Reply} (hutf : r.bulksUtf8 = true) :
    decodeResponse true (r.tree .bytes) = .ok (r.tree bulkText) ↔ r.nestedBulk = false := by
  cases r with
  | bulk data =>
    obtain ⟨s, hs⟩ := Option.isSome_iff_exists.mp (by simpa [bulksUtf8] using hutf)
    simp [tree, decodeResponse, hs, bulkText, nestedBulk]
  | array items =>
    simp only [tree, decodeResponse, nestedBulk, Except.ok.injEq, RespValue.list.injEq]
    constructor
    · intro h
      have hbytes := hasBytesList_treeList .bytes true (fun _ => rfl) items
      rw [h, hasBytesList_treeList bulkText false (fun _ => rfl), Bool.false_and,
        Bool.true_and] at hbytes
      exact hbytes.symm
    · exact treeList_of_not_hasBulk .bytes bulkText items
  | _ => simp [tree, decodeResponse, nestedBulk]

end Reply

/-! ## Single commands -/

/-- With `decode_responses` set this reply is decoded as a whole, by a connection that reads it
and by an asynchronous client to whose command it is the reply: the value has no byte string in
it and is the reply tree with the texts of its bulk strings. -/
def DecodesWhole (limit : ℕ) (reply : Reply) : Prop :=
  (∀ (c : Connection) (rest : Bytes), c.Holds true (reply.encode ++ rest) →
    ∃ v, (c.readResponse limit).1 = .ok v ∧ v.hasBytes = false ∧ v = reply.tree Reply.bulkText) ∧
  ∀ (c : AsyncKacheClient) (s : AsyncStream) (args : List Arg) (x : Exchange),
    c.decodeResponses = true → c.stream = some s → s.Holds [] → x.Delivers [reply] →
      ∃ v, (c.execute limit args x).1 = .ok v ∧ v.hasBytes = false ∧
        v = reply.tree Reply.bulkText

/-- A connection on which exactly these bytes are to be read. -/
def Connection.receiving (d : Bool) (data : Chunk) : Connection :=
  ⟨"127.0.0.1", 6379, d, some ⟨.init, [.chunk data], []⟩⟩

lemma Connection.holds_receiving (d : Bool) (data : Chunk) :
    (Connection.receiving d data).Holds d data.bytes := by
  refine ⟨rfl, _, rfl, ⟨le_rfl, by simp [RespReader.init]⟩, Feed.quiet_map_chunk [data], ?_⟩
  exact (RespReader.unread_init_map_chunk [data]).trans (List.flatMap_singleton _ _)

/-- **When a reply is decoded as a whole.**  A well-formed reply without errors whose bulk strings
are UTF-8 is decoded as a whole if and only if it is no array with a bulk string in it. -/
theorem decodesWhole_iff {limit : ℕ} {reply : Reply} (hwf : reply.wellFormed = true)
    (herr : reply.hasError = false) (hutf : reply.bulksUtf8 = true)
    (hstack : reply.depth ≤ limit) :
    DecodesWhole limit reply ↔ reply.nestedBulk = false := by
  have hout := reply.outcome_eq_tree limit hwf herr hstack
  have hdecoded : reply.decoded limit true = decodeResponse true (reply.tree .bytes) := by
    rw [Reply.decoded, hout]
    rfl
  rw [← Reply.decodeResponse_tree hutf]
  constructor
  · intro h
    have hholds : (Connection.receiving true ⟨reply.encode, reply.encode_ne_nil⟩).Holds true
        (reply.encode ++ []) := by
      rw [List.append_nil]
      exact Connection.holds_receiving true _
    obtain ⟨v, hv, -, rfl⟩ := h.1 _ [] hholds
    rw [(hholds.readResponse limit).1, hdecoded] at hv
    exact hv
  · intro h
    refine ⟨fun c rest hc => ?_, fun c s args x hd hs hholds hx => ?_⟩
    · refine ⟨_, ?_, reply.hasBytes_tree_bulkText, rfl⟩
      rw [(hc.readResponse limit).1, hdecoded, h]
    · refine ⟨_, ?_, reply.hasBytes_tree_bulkText, rfl⟩
      rw [AsyncKacheClient.execute_of_some hs, (hholds.roundTrip_own limit args hx).1, hd, hout]
      exact h

/-- A bulk string. -/
theorem decodesWhole_iff_bulk :
    DecodesWhole 1 (.bulk [111, 107]) ↔ (Reply.bulk [111, 107]).nestedBulk = false :=
  decodesWhole_iff (by decide) (by decide) (by decide) (by decide)

/-- The value of `MGET` is a list of byte strings. -/
theorem not_decodesWhole_mget : ¬ DecodesWhole 2 (.array [.bulk [111, 107]]) := by
  intro h
  have hholds := Connection.holds_receiving true
    ⟨[42, 49, 13, 10, 36, 50, 13, 10, 111, 107, 13, 10], by decide⟩
  obtain ⟨v, hv, hbytes, -⟩ := h.1 _ [] hholds
  have hread : ((Connection.receiving true
      ⟨[42, 49, 13, 10, 36, 50, 13, 10, 111, 107, 13, 10], by decide⟩).readResponse 2).1 =
        .ok (.list [.bytes [111, 107]]) := rfl
  rw [hread] at hv
  rw [← Except.ok.inj hv] at hbytes
  cases hbytes

/-! ## Pipelines -/

/-- The results of `count` reads, where the replies that arrive have these outcomes and a read
behind the last one raises `closed`. -/
def gather (closed : Exc) : ℕ → List (Except Exc RespValue) → Except Exc (List RespValue)
  | 0, _ => .ok []
  | _ + 1, [] => .error closed
  | count + 1, out :: outs => out.bind fun v => (gather closed count outs).map (v :: ·)

/-- What a read raises where nothing arrives any more. -/
def closedError : ℕ → Exc
  | 0 => .recursionError
  | _ + 1 => .protocolError "Connection closed while reading RESP frame"

/-- If all replies are values, the results are these values or the exception at the end. -/
lemma gather_map_ok {α : Type} (closed : Exc) (g : α → RespValue) (count : ℕ) (rs : List α) :
    gather closed count (rs.map fun r => .ok (g r)) =
      if count ≤ rs.length then .ok ((rs.take count).map g) else .error closed := by
  induction rs generalizing count with
  | nil => cases count <;> rfl
  | cons r rs ih =>
    cases count with
    | zero => rfl
    | succ count =>
      rw [List.map_cons, gather, ih, List.length_cons, List.take_succ_cons]
      simp only [Nat.add_le_add_iff_right]
      split_ifs <;> rfl

/-- The loop over a reader that reads frame by frame gathers the outcomes of the frames. -/
lemma collect_gather {σ : Type} {read : σ → Except Exc RespValue × σ} {Unread : σ → Bytes → Prop}
    {limit : ℕ} {d : Bool} {closed : Exc}
    (hread : ∀ s (r : Reply) rest, Unread s (r.encode ++ rest) →
      (read s).1 = r.decoded limit d ∧ Unread (read s).2 (r.leftover limit ++ rest))
    (hend : ∀ s, Unread s [] → (read s).1 = .error closed) (count : ℕ) (frames : List Reply)
    {s : σ} (h : Unread s (Reply.encodeList frames)) :
    (collect read count s).1 = gather closed count (frames.map (Reply.decoded limit d)) := by
  induction count generalizing frames s with
  | zero => rfl
  | succ count ih =>
    rw [collect]
    cases frames with
    | nil =>
      have hclosed := hend s h
      rcases hs : read s with ⟨res, s'⟩
      rw [hs] at hclosed
      obtain rfl : res = .error closed := hclosed
      rfl
    | cons r rs =>
      obtain ⟨hres, hleft⟩ := hread s r _ h
      rw [List.map_cons, gather]
      rcases hs : read s with ⟨e | v, s'⟩
      · rw [hs] at hres
        rw [← hres]
        rfl
      · rw [hs] at hres hleft
        have hclean : r.leftover limit = [] := Reply.clean_of_decoded hres.symm
        rw [hclean] at hleft
        have hrest := ih rs hleft
        rw [← hres, Except.bind, ← hrest]
        dsimp only
        rcases collect read count s' with ⟨_ | _, s''⟩ <;> rfl

/-- Where nothing arrives any more, a read raises. -/
lemma Socket.Holds.read_nil {s : Socket} (hs : s.Holds []) (limit : ℕ) :
    (s.read limit).1 = .error (closedError limit) := by
  obtain ⟨hok, hquiet, hunread⟩ := hs
  cases limit with
  | zero => rfl
  | succ limit =>
    obtain ⟨hview, hdata⟩ := List.append_eq_nil_iff.mp hunread
    have hfeed : s.feed = [] := by
      cases hf : s.feed with
      | nil => rfl
      | cons ev feed =>
        cases ev with
        | chunk c =>
          rw [hf] at hdata
          exact absurd (List.append_eq_nil_iff.mp hdata).1 c.ne_nil
        | interrupt e => exact absurd (hf ▸ List.mem_cons_self) (hquiet e)
    -- there is no byte for the marker
    have hlen : (s.reader.buf.length : ℤ) - s.reader.pos < 1 := by
      have hle := List.drop_eq_nil_iff.mp hview
      have := hok.1
      omega
    have hwait : Coro.awaitReady (fun r : RespReader => !decide ((r.buf.length : ℤ) - r.pos < 1))
        RespReader.extend (closedError (limit + 1)) s.reader [] =
          (.error (closedError (limit + 1)), s.reader, []) := by
      simp [Coro.awaitReady, hlen]
    have hmarker : RespReader.readMarker.run s.reader [] =
        (.error (closedError (limit + 1)), s.reader, []) := Coro.run_await_error hwait
    have hframe : (RespReader.parseFrame (limit + 1)).run s.reader [] =
        (.error (closedError (limit + 1)), s.reader, []) := by
      rw [RespReader.parseFrame, RespReader.parseFrameBy, Coro.bind_eq, Coro.run_bind, hmarker]
    rw [Socket.read, RespReader.readResponse, hfeed, hframe]

/-- The same on a connection. -/
lemma Connection.Holds.readResponse_nil {d : Bool} {c : Connection} (hc : c.Holds d [])
    (limit : ℕ) : (c.readResponse limit).1 = .error (closedError limit) := by
  obtain ⟨-, s, hs, hholds⟩ := hc
  have hclosed := hholds.read_nil limit
  rcases hread : s.read limit with ⟨res, s'⟩
  rw [hread] at hclosed
  obtain rfl : res = .error (closedError limit) := hclosed
  have herr : RespReader.IsFrameError (closedError limit) :=
    (Socket.read_error (by rw [hread])).resolve_right (hholds.quiet _)
  rw [Connection.readResponse_of_error hs hread, Connection.exceptClauses_of_isFrameError _ _ herr]

section Execute

variable {limit : ℕ} {d : Bool} {x : Exchange} {frames : List Reply}

/-- The results of a pipeline. -/
lemma Pipeline.execute_gather {p : Pipeline} (hp : p.conn.Holds d []) (hx : x.Delivers frames) :
    (p.execute limit x).1 =
      gather (closedError limit) p.commands.length (frames.map (Reply.decoded limit d)) := by
  unfold Pipeline.execute
  by_cases hempty : p.commands.isEmpty = true
  · rw [if_pos hempty, List.isEmpty_iff.mp hempty]
    rfl
  · obtain ⟨conn, hsend, hconn⟩ := hp.sendAll "sending data to" (encodeCommands p.commands) hx
    simp only [if_neg hempty, Connection.sendPacked, hsend]
    have hread : ∀ (c : Connection) (r : Reply) rest, c.Holds d (r.encode ++ rest) →
        (c.readResponse limit).1 = r.decoded limit d ∧
          (c.readResponse limit).2.Holds d (r.leftover limit ++ rest) :=
      fun _ _ _ hc => hc.readResponse limit
    exact collect_gather hread (fun _ hc => hc.readResponse_nil limit) p.commands.length frames
      hconn

/-- The results of an asynchronous pipeline. -/
lemma AsyncPipeline.execute_gather {p : AsyncPipeline} (hp : p.stream.Holds [])
    (hx : x.Delivers frames) :
    (p.execute limit x).1 =
      gather (closedError limit) p.commands.length (frames.map (Reply.decoded limit false)) := by
  unfold AsyncPipeline.execute
  by_cases hempty : p.commands.isEmpty = true
  · rw [if_pos hempty, List.isEmpty_iff.mp hempty]
    rfl
  · obtain ⟨stream, hwrite, hstream⟩ := hp.writeDrain (encodeCommands p.commands) hx
    simp only [if_neg hempty, hwrite]
    have hread : ∀ (s : AsyncStream) (r : Reply) rest, s.Holds (r.encode ++ rest) →
        (s.readResponse limit).1 = r.decoded limit false ∧
          (s.readResponse limit).2.Holds (r.leftover limit ++ rest) :=
      fun _ r _ hs => r.decoded_false limit ▸ hs.readResponse limit
    have hend : ∀ s : AsyncStream, s.Holds [] →
        (s.readResponse limit).1 = .error (closedError limit) :=
      fun s hs => hs.2.read_nil limit
    exact collect_gather hread hend p.commands.length frames hstream

end Execute

/-- What an asynchronous pipeline writes. -/
lemma AsyncPipeline.sent_execute (p : AsyncPipeline) (limit : ℕ) (x : Exchange) :
    (p.execute limit x).2.stream.socket.sent =
      p.stream.socket.sent ++ encodeCommands p.commands := by
  have hcollect : ∀ (count : ℕ) (s : AsyncStream),
      (collect (AsyncStream.readResponse limit) count s).2.socket.sent = s.socket.sent := by
    intro count
    induction count with
    | zero => exact fun s => rfl
    | succ count ih =>
      intro s
      have hone : (s.readResponse limit).2.socket.sent = s.socket.sent := rfl
      rw [collect]
      rcases hread : s.readResponse limit with ⟨e | v, s₁⟩
      · rw [hread] at hone
        exact hone
      · rw [hread] at hone
        have hrest := (ih s₁).trans hone
        rcases hc : collect (AsyncStream.readResponse limit) count s₁ with ⟨_ | _, s₂⟩ <;>
          simpa only [hc] using hrest
  unfold AsyncPipeline.execute
  by_cases hempty : p.commands.isEmpty = true
  · rw [if_pos hempty, List.isEmpty_iff.mp hempty]
    exact (List.append_nil _).symm
  · rw [if_neg hempty]
    rcases hx : x.sendOutcome with e | _
    · simp only [AsyncStream.writeDrain, hx]
      rfl
    · simp only [AsyncStream.writeDrain, hx]
      exact hcollect p.commands.length _

section New

variable {limit : ℕ} {d : Bool} {x : Exchange} {frames : List Reply} {calls : List SharedCall}

/-- The results of a new pipeline for these calls. -/
lemma Pipeline.execute_calls {p : Pipeline} (hnew : p.commands = []) (hp : p.conn.Holds d [])
    (hx : x.Delivers frames) :
    ((p.queueAll calls).execute limit x).1 =
      gather (closedError limit) calls.length (frames.map (Reply.decoded limit d)) := by
  have hqueued : (⟨p.conn, calls.map SharedCall.args⟩ : Pipeline).conn.Holds d [] := hp
  rw [Pipeline.queueAll_eq, hnew, List.nil_append, Pipeline.execute_gather hqueued hx,
    List.length_map]

/-- The results of a new asynchronous pipeline for these calls. -/
lemma AsyncPipeline.execute_calls {q : AsyncPipeline} (hnew : q.commands = [])
    (hq : q.stream.Holds []) (hx : x.Delivers frames) :
    ((q.queueAll calls).execute limit x).1 =
      gather (closedError limit) calls.length (frames.map (Reply.decoded limit false)) := by
  have hqueued : (⟨q.stream, calls.map SharedCall.args⟩ : AsyncPipeline).stream.Holds [] := hq
  rw [AsyncPipeline.queueAll_eq, hnew, List.nil_append, AsyncPipeline.execute_gather hqueued hx,
    List.length_map]

/-- All replies can be delivered. -/
lemma exists_delivers (frames : List Reply) : ∃ x : Exchange, x.Delivers frames := by
  by_cases hnil : Reply.encodeList frames = []
  · exact ⟨⟨.ok (), []⟩, rfl, by simp [Feed.Quiet], hnil.symm⟩
  · exact ⟨⟨.ok (), [.chunk ⟨_, hnil⟩]⟩, rfl, Feed.quiet_map_chunk [⟨_, hnil⟩],
      List.flatMap_singleton _ _⟩

end New

/-! ### Both pipelines -/

/-- The two pipelines agree on these calls, with these replies: they return the same list of
results, or raise the same, and send the same bytes.  `d` is given to both clients as
`decode_responses`, and nothing is unread on the connections of their pipelines. -/
def PipelinesAgree (limit : ℕ) (d : Bool) (calls : List SharedCall) (frames : List Reply) : Prop :=
  ∀ (client client' : KacheClient) (env : Acquire) (p : Pipeline) (asyncClient : AsyncKacheClient)
    (q : AsyncPipeline) (x : Exchange),
    client.pipeline limit env = (.ok p, client') → asyncClient.pipeline = .ok q →
    client.pool.decodeResponses = d → asyncClient.decodeResponses = d →
    p.conn.Holds d [] → q.stream.Holds [] → x.Delivers frames →
      ((p.queueAll calls).execute limit x).1 = ((q.queueAll calls).execute limit x).1 ∧
        ∀ s s', p.conn.sock = some s →
          ((p.queueAll calls).execute limit x).2.conn.sock = some s' →
            ∃ data, s'.sent = s.sent ++ data ∧
              ((q.queueAll calls).execute limit x).2.stream.socket.sent =
                q.stream.socket.sent ++ data

/-- The text of a bulk string, if it is not UTF-8, is not decoded; other replies are not decoded
at all. -/
def Reply.textDecodes : Reply → Bool
  | .bulk data => (decodeUtf8 data).isSome
  | _ => true

/-- None of the replies that a pipeline returns is a bulk string; where the replies end before it
has read one for each command, it returns none of them, and it is enough that the bulk strings
are UTF-8. -/
def NoBulkReturned (count : ℕ) (frames : List Reply) : Prop :=
  if count ≤ frames.length then ∀ r ∈ frames.take count, r.isBulk = false
  else ∀ r ∈ frames, r.textDecodes = true

/-- A value in front does not change whether the further results are the same. -/
lemma map_cons_inj {v : RespValue} {a b : Except Exc (List RespValue)} :
    a.map (v :: ·) = b.map (v :: ·) ↔ a = b := by
  cases a <;> cases b <;> simp [Except.map]

/-- Only a bulk string is changed by decoding. -/
lemma Reply.decodeResponse_of_not_isBulk {r : Reply} (h : r.isBulk = false) :
    decodeResponse true (r.tree .bytes) = .ok (r.tree .bytes) := by
  cases r with
  | bulk data => simp [isBulk] at h
  | _ => simp [tree, decodeResponse]

/-- One more reply: whether it may be a bulk string depends on whether the replies behind it are
enough. -/
lemma noBulkReturned_cons (count : ℕ) (r : Reply) (rs : List Reply) :
    NoBulkReturned (count + 1) (r :: rs) ↔
      (if count ≤ rs.length then r.isBulk = false else r.textDecodes = true) ∧
        NoBulkReturned count rs := by
  unfold NoBulkReturned
  rw [List.length_cons, List.take_succ_cons, List.forall_mem_cons, List.forall_mem_cons]
  simp only [Nat.add_le_add_iff_right]
  split_ifs <;> rfl

/-- What is gathered from replies that are not decoded: their values, if there are enough. -/
lemma gather_undecoded {limit : ℕ} {frames : List Reply} (hwf : ∀ r ∈ frames, r.wellFormed = true)
    (herr : ∀ r ∈ frames, r.hasError = false) (hstack : ∀ r ∈ frames, r.depth ≤ limit)
    (closed : Exc) (count : ℕ) :
    gather closed count (frames.map (Reply.decoded limit false)) =
      if count ≤ frames.length then .ok ((frames.take count).map (Reply.tree .bytes))
      else .error closed := by
  rw [← gather_map_ok closed (Reply.tree .bytes) count frames]
  congr 1
  refine List.map_congr_left fun r hr => ?_
  rw [Reply.decoded_false]
  exact r.outcome_eq_tree limit (hwf r hr) (herr r hr) (hstack r hr)

/-- A bulk string in front: the results are the same exactly if both end with an exception, that
of the end of the stream. -/
lemma gather_bulk_iff {closed : Exc} (hclosed : closed ≠ .unicodeDecodeError) {data : Bytes}
    {decoded : Except Exc (List RespValue)} {values : List RespValue} {enough : Prop}
    [Decidable enough] :
    ((decodeResponse true (.bytes data)).bind fun v => decoded.map (v :: ·)) =
        Except.map (RespValue.bytes data :: ·) (if enough then .ok values else .error closed) ↔
      ¬ enough ∧ (decodeUtf8 data).isSome = true ∧ decoded = .error closed := by
  rw [decodeResponse]
  cases hdata : decodeUtf8 data with
  | none =>
    -- the decoder raises, and at the end there is another exception or a list
    refine iff_of_false (fun h => ?_) (fun h => by simp at h)
    split_ifs at h
    · cases h
    · exact hclosed (Except.error.inj h).symm
  | some text =>
    by_cases henough : enough
    · -- a text is no byte string
      refine iff_of_false (fun h => ?_) (fun h => h.1 henough)
      rw [if_pos henough] at h
      cases decoded <;> simp [Except.bind, Except.map] at h
    · rw [if_neg henough]
      cases decoded <;> simp [Except.bind, Except.map, henough]

/-- Decoded and undecoded values are gathered alike exactly if no bulk string is returned. -/
lemma gather_decoded_iff {limit : ℕ} {frames : List Reply} (hwf : ∀ r ∈ frames, r.wellFormed = true)
    (herr : ∀ r ∈ frames, r.hasError = false) (hstack : ∀ r ∈ frames, r.depth ≤ limit)
    {closed : Exc} (hclosed : closed ≠ .unicodeDecodeError) (count : ℕ) :
    gather closed count (frames.map (Reply.decoded limit true)) =
        gather closed count (frames.map (Reply.decoded limit false)) ↔
      NoBulkReturned count frames := by
  induction frames generalizing count with
  | nil => cases count <;> simp [gather, NoBulkReturned]
  | cons r rs ih =>
    rw [List.forall_mem_cons] at hwf herr hstack
    cases count with
    | zero => simp [gather, NoBulkReturned]
    | succ count =>
      have hih := ih hwf.2 herr.2 hstack.2 count
      have hout := r.outcome_eq_tree limit hwf.1 herr.1 hstack.1
      have hdecoded : r.decoded limit true = decodeResponse true (r.tree .bytes) := by
        rw [Reply.decoded, hout]
        rfl
      rw [List.map_cons, List.map_cons, gather, gather, hdecoded, Reply.decoded_false, hout,
        noBulkReturned_cons, ← hih]
      cases hbulk : r.isBulk with
      | false =>
        have htext : r.textDecodes = true := by
          cases r <;> simp_all [Reply.isBulk, Reply.textDecodes]
        rw [Reply.decodeResponse_of_not_isBulk hbulk, htext]
        simp only [Except.bind, map_cons_inj, ite_self, true_and]
      | true =>
        obtain ⟨data, rfl⟩ : ∃ data, r = .bulk data := by cases r <;> simp_all [Reply.isBulk]
        rw [gather_undecoded hwf.2 herr.2 hstack.2]
        refine (gather_bulk_iff hclosed).trans ?_
        by_cases hle : count ≤ rs.length
        · simp [hle]
        · simp [hle, Reply.textDecodes]

/-- **When the pipelines agree.**  With replies that are well formed and without errors, the
asynchronous pipeline sends the same bytes and returns the same results as the synchronous one if
and only if responses are not to be decoded or no bulk string is returned. -/
theorem pipelinesAgree_iff {limit : ℕ} {d : Bool} {calls : List SharedCall} {frames : List Reply}
    (hwf : ∀ r ∈ frames, r.wellFormed = true) (herr : ∀ r ∈ frames, r.hasError = false)
    (hstack : ∀ r ∈ frames, r.depth ≤ limit) :
    PipelinesAgree limit d calls frames ↔ d = false ∨ NoBulkReturned calls.length frames := by
  have hclosed : closedError limit ≠ .unicodeDecodeError := by cases limit <;> simp [closedError]
  constructor
  · intro h
    cases d with
    | false => exact .inl rfl
    | true =>
      right
      obtain ⟨x, hx⟩ := exists_delivers frames
      have hconn := Connection.holds_opened "127.0.0.1" 6379 true
      have hstream : AsyncStream.opened.Holds [] := ⟨rfl, Socket.holds_opened⟩
      obtain ⟨hres, -⟩ := h
        ⟨.new "127.0.0.1" 6379 1 true none, some ⟨"127.0.0.1", 6379, true, some .opened⟩⟩ _
        KacheClient.up _ ⟨true, .new "127.0.0.1" 6379 1 none false, some .opened⟩ _ x rfl rfl rfl
        rfl hconn hstream hx
      rw [Pipeline.execute_calls rfl hconn hx, AsyncPipeline.execute_calls rfl hstream hx,
        gather_decoded_iff hwf herr hstack hclosed] at hres
      exact hres
  · intro h client client' env p asyncClient q x hp hq _ _ hconn hstream hx
    have hnew := KacheClient.commands_of_pipeline hp
    have hnewAsync := AsyncKacheClient.commands_of_pipeline hq
    constructor
    · rw [Pipeline.execute_calls hnew hconn hx, AsyncPipeline.execute_calls hnewAsync hstream hx]
      cases d with
      | false => rfl
      | true =>
        exact (gather_decoded_iff hwf herr hstack hclosed _).mpr (h.resolve_left Bool.noConfusion)
    · intro s s' hs hs'
      refine ⟨encodeCommands (calls.map SharedCall.args), ?_, ?_⟩
      · rw [Pipeline.queueAll_eq, hnew] at hs'
        exact Pipeline.sent_execute (p := ⟨p.conn, calls.map SharedCall.args⟩) hs limit hx.sent hs'
      · rw [AsyncPipeline.queueAll_eq, AsyncPipeline.sent_execute, hnewAsync]
        rfl

/-- An integer. -/
theorem pipelinesAgree_iff_incr :
    PipelinesAgree 1 true [.incr (.str "k") 1] [.integer 5] ↔
      true = false ∨ NoBulkReturned [SharedCall.incr (.str "k") 1].length [.integer 5] :=
  pipelinesAgree_iff (by decide) (by decide) (by decide)

/-- A client that decodes responses gets a text from its pipeline, and an asynchronous one that
decodes responses gets a byte string. -/
theorem not_pipelinesAgree_get : ¬ PipelinesAgree 1 true [.get (.str "k")] [.bulk [118]] := by
  intro h
  have hx : Exchange.Delivers ⟨.ok (), [.chunk ⟨[36, 49, 13, 10, 118, 13, 10], by decide⟩]⟩
      [.bulk [118]] := ⟨rfl, Feed.quiet_map_chunk [⟨[36, 49, 13, 10, 118, 13, 10], by decide⟩],
    by decide⟩
  obtain ⟨hres, -⟩ := h
    ⟨.new "127.0.0.1" 6379 1 true none, some ⟨"127.0.0.1", 6379, true, some .opened⟩⟩ _
    KacheClient.up _ ⟨true, .new "127.0.0.1" 6379 1 none false, some .opened⟩ _ _ rfl rfl rfl rfl
    (Connection.holds_opened "127.0.0.1" 6379 true) ⟨rfl, Socket.holds_opened⟩ hx
  have hsync : ((Pipeline.queueAll ⟨⟨"127.0.0.1", 6379, true, some .opened⟩, []⟩
      [.get (.str "k")]).execute 1
        ⟨.ok (), [.chunk ⟨[36, 49, 13, 10, 118, 13, 10], by decide⟩]⟩).1 = .ok [.str "v"] := rfl
  have hasync : ((AsyncPipeline.queueAll ⟨.opened, []⟩ [.get (.str "k")]).execute 1
      ⟨.ok (), [.chunk ⟨[36, 49, 13, 10, 118, 13, 10], by decide⟩]⟩).1 = .ok [.bytes [118]] := rfl
  rw [hsync, hasync] at hres
  cases hres

end KacheDB
