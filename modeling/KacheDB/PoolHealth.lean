import KacheDB.Pool

/-!
# Idle connections that owe replies

A pipeline that is interrupted leaves the rest of its replies unread on a connection that stays
open.  Such a connection may be released to the pool, and what stands between it and the next
caller is the health check, one `PING` whose reply is the oldest unread one.

`getConnection_aligned_iff` says when the check is enough: exactly if the oldest unread reply of
the connection at the front of the queue is not itself a `PONG`.
-/

namespace KacheDB

open Foundation

namespace Connection

variable {d : Bool} {c : Connection} {limit : ℕ}

/-- What a connection holds is determined. -/
lemma Holds.unique {unread unread' : Bytes} (h : c.Holds d unread) (h' : c.Holds d unread') :
    unread = unread' := by
  obtain ⟨-, s, hs, hholds⟩ := h
  obtain ⟨-, s', hs', hholds'⟩ := h'
  obtain rfl := Option.some.inj (hs.symm.trans hs')
  exact hholds.unread_eq.symm.trans hholds'.unread_eq

/-- A command on a connection that holds a frame is answered with this frame, and what the
command gives rise to is unread behind what the frame leaves. -/
lemma Holds.roundTrip_leaves {r : Reply} {rest : Bytes} (hc : c.Holds d (r.encode ++ rest))
    (limit : ℕ) (args : List Arg) {x : Exchange} {frames : List Reply}
    (hx : x.Delivers frames) :
    (c.roundTrip limit args x).1 = r.decoded limit d ∧
      (c.roundTrip limit args x).2.Holds d
        (r.leftover limit ++ (rest ++ Reply.encodeList frames)) := by
  obtain ⟨c', hsend, hc'⟩ := hc.sendAll "sending command to" (encodeCommand args) hx
  rw [List.append_assoc] at hc'
  simp only [Connection.roundTrip, sendCommand, hsend]
  exact hc'.readResponse limit

/-- A command on a connection with nothing unread is answered with its own reply. -/
lemma Holds.roundTrip_own {r : Reply} (hc : c.Holds d []) (limit : ℕ) (args : List Arg)
    {x : Exchange} (hx : x.Delivers [r]) :
    (c.roundTrip limit args x).1 = r.decoded limit d ∧
      (c.roundTrip limit args x).2.Holds d (r.leftover limit) := by
  obtain ⟨c', hsend, hc'⟩ := hc.sendAll "sending command to" (encodeCommand args) hx
  rw [List.nil_append, Reply.encodeList, Reply.encodeList] at hc'
  simp only [Connection.roundTrip, sendCommand, hsend]
  simpa using hc'.readResponse limit

/-- A connection that holds bytes is open. -/
lemma Holds.isConnected {unread : Bytes} (hc : c.Holds d unread) : c.isConnected = true := by
  obtain ⟨-, s, hs, -⟩ := hc
  rw [Connection.isConnected, hs]
  rfl

end Connection

/-- What reading a reply raises is a frame error. -/
lemma Reply.isFrameError_of_outcome {limit : ℕ} {r : Reply} {e : Exc}
    (h : r.outcome limit = .error e) : RespReader.IsFrameError e := by
  have hok : respBuffer.Ok RespReader.init := ⟨le_rfl, by simp [RespReader.init]⟩
  have hquiet : Feed.Quiet ([⟨r.encode, r.encode_ne_nil⟩].map .chunk) := Feed.quiet_map_chunk _
  have hunread : RespReader.init.unread ([⟨r.encode, r.encode_ne_nil⟩].map .chunk) =
      r.encode ++ [] := by
    rw [RespReader.unread_init_map_chunk, List.flatMap_singleton, List.append_nil]
  obtain ⟨hres, -⟩ := RespReader.readResponse_quiet hok hquiet hunread
  exact (RespReader.readResponse_error (hres.trans h)).resolve_right (hquiet e)

/-- A reply is decoded to a value, and then it is consumed as a whole, or to an `Exception`. -/
lemma Reply.decoded_cases (limit : ℕ) (d : Bool) (r : Reply) :
    (∃ v, r.decoded limit d = .ok v ∧ r.leftover limit = []) ∨
      ∃ e, r.decoded limit d = .error e ∧ e.isException = true := by
  rw [Reply.decoded]
  cases hout : r.outcome limit with
  | error e => exact .inr ⟨e, rfl, (isFrameError_of_outcome hout).1⟩
  | ok v =>
    cases hd : decodeResponse d v with
    | ok w => exact .inl ⟨w, hd, Reply.clean_of_isValue ⟨v, hout⟩⟩
    | error e =>
      refine .inr ⟨e, hd, ?_⟩
      rw [decodeResponse_error hd]
      rfl

/-- The oldest unread reply of a connection looks like the answer to a health check. -/
def LooksHealthy (limit : ℕ) (d : Bool) (pending : List Reply) : Prop :=
  ∃ reply rest, pending = reply :: rest ∧ reply.decoded limit d = .ok (.str "PONG")

/-- The health check and the authentication are each answered with one reply, in full. -/
def Acquire.Answered (env : Acquire) : Prop :=
  (∃ r, env.ping.Delivers [r]) ∧ ∃ r, env.auth.Delivers [r]

/-! ## The health check -/

namespace Connection

variable {d : Bool} {c : Connection} {limit : ℕ} {ping : Exchange} {own : Reply}

/-- What the check makes of a command whose reply decodes. -/
lemma checkHealth_of_decoded {r : Reply}
    (h : (c.roundTrip limit [.str "PING"] ping).1 = r.decoded limit d) :
    (r.decoded limit d = .ok (.str "PONG") ∧ c.checkHealth limit ping =
        (.ok true, (c.roundTrip limit [.str "PING"] ping).2)) ∨
      (r.decoded limit d ≠ .ok (.str "PONG") ∧ (c.checkHealth limit ping).1 = .ok false) := by
  unfold checkHealth
  rcases hrt : c.roundTrip limit [.str "PING"] ping with ⟨e | v, c'⟩
  · right
    rw [hrt] at h
    rcases r.decoded_cases limit d with ⟨v, hv, -⟩ | ⟨e', he', hexc⟩
    · rw [hv] at h
      cases h
    · rw [he'] at h
      obtain rfl := Except.error.inj h
      rw [he']
      exact ⟨by simp, by simp [hexc]⟩
  · rw [hrt] at h
    rw [← h]
    cases v with
    | str s =>
      by_cases hs : s = "PONG"
      · left
        simp [hs]
      · right
        simp [hs]
    | _ =>
      right
      simp

/-- The health check of a connection that owes replies looks at the oldest of them. -/
lemma Holds.checkHealth_owing {r : Reply} {rest : List Reply}
    (hc : c.Holds d (Reply.encodeList (r :: rest))) (hping : ping.Delivers [own]) :
    (r.decoded limit d = .ok (.str "PONG") ∧ ∃ c', c.checkHealth limit ping = (.ok true, c') ∧
        c'.Holds d (Reply.encodeList (rest ++ [own]))) ∨
      (r.decoded limit d ≠ .ok (.str "PONG") ∧ (c.checkHealth limit ping).1 = .ok false) := by
  rw [Reply.encodeList] at hc
  obtain ⟨hres, hholds⟩ := hc.roundTrip_leaves limit [.str "PING"] hping
  rcases checkHealth_of_decoded hres with ⟨hpong, hcheck⟩ | hstale
  · left
    refine ⟨hpong, _, hcheck, ?_⟩
    rcases r.decoded_cases limit d with ⟨v, -, hclean⟩ | ⟨e, he, -⟩
    · rw [hclean, List.nil_append] at hholds
      simpa [Reply.encodeList_eq_flatMap] using hholds
    · rw [he] at hpong
      cases hpong
  · exact .inr hstale

/-- The health check of a connection that owes nothing leaves it so. -/
lemma Holds.checkHealth_clean (hc : c.Holds d []) (hping : ping.Delivers [own]) :
    (∃ c', c.checkHealth limit ping = (.ok true, c') ∧ c'.Holds d []) ∨
      (c.checkHealth limit ping).1 = .ok false := by
  obtain ⟨hres, hholds⟩ := hc.roundTrip_own limit [.str "PING"] hping
  rcases checkHealth_of_decoded hres with ⟨hpong, hcheck⟩ | ⟨-, hcheck⟩
  · left
    rcases own.decoded_cases limit d with ⟨v, -, hclean⟩ | ⟨e, he, -⟩
    · exact ⟨_, hcheck, hclean ▸ hholds⟩
    · rw [he] at hpong
      cases hpong
  · exact .inr hcheck

end Connection

/-! ## Handing out connections -/

namespace ConnectionPool

/-- The idle connections of the pool are open and owe these replies, the oldest connection
first. -/
def Owing (d : Bool) (p : ConnectionPool) (owed : List (List Reply)) : Prop :=
  p.decodeResponses = d ∧
    List.Forall₂ (fun (conn : Connection) pending => conn.Holds d (Reply.encodeList pending))
      p.pool owed

/-- Every connection that is returned owes no reply, so that its first command is answered with
its own reply. -/
def HandsOutAligned (limit : ℕ) (d : Bool) (p : ConnectionPool) (env : Acquire) : Prop :=
  ∀ conn, (p.getConnection limit env).1 = .ok conn → conn.Holds d [] ∧
    ∀ (args : List Arg) (x : Exchange) (r : Reply), x.Delivers [r] →
      (conn.roundTrip limit args x).1 = r.decoded limit d

variable {limit : ℕ} {d : Bool} {p : ConnectionPool} {env : Acquire} {owed : List (List Reply)}

/-- A new connection owes nothing. -/
lemma Creation.holds {out : Except Exc Connection × ConnectionPool}
    (h : Creation limit p env out) (hd : p.decodeResponses = d) (henv : env.Answered)
    {conn : Connection} (hconn : out.1 = .ok conn) : conn.Holds d [] := by
  have hopened : p.openedConnection.Holds d [] := hd ▸ Connection.holds_opened _ _ _
  cases h with
  | exhausted e hfull => cases hconn
  | notOpened e e' hroom hdial => cases hconn
  | opened hroom hdial hpassword =>
    obtain rfl := Except.ok.inj hconn
    exact hopened
  | notAuthenticated password e c hroom hdial hpassword hauth => cases hconn
  | authenticated password res c hroom hdial hpassword hauth hok =>
    obtain rfl := Except.ok.inj hconn
    obtain ⟨r, hr⟩ := henv.2
    obtain ⟨hres, hholds⟩ := hopened.roundTrip_own limit
      [.str "AUTH", .str password] hr
    rw [authenticate] at hauth
    rw [hauth] at hres hholds
    rcases r.decoded_cases limit d with ⟨v, -, hclean⟩ | ⟨e, he, -⟩
    · exact hclean ▸ hholds
    · rw [he] at hres
      cases hres
  | rejected password res c hdial hpassword hauth => cases hconn

/-- A connection that owes nothing is aligned. -/
lemma aligned_of_holds (h : ∀ conn, (p.getConnection limit env).1 = .ok conn → conn.Holds d []) :
    p.HandsOutAligned limit d env :=
  fun conn hconn => ⟨h conn hconn, fun args _ _ hx =>
    ((h conn hconn).roundTrip_own limit args hx).1⟩

/-- A pool whose oldest idle connection is stale hands out a new connection. -/
lemma aligned_of_stale {front : Connection} {idle : List Connection}
    (hpool : p.pool = front :: idle) (hd : p.decodeResponses = d) (henv : env.Answered)
    (hstale : (front.checkHealth limit env.ping).1 = .ok false) :
    p.HandsOutAligned limit d env := by
  refine aligned_of_holds fun conn hconn => ?_
  rw [getConnection_of_stale hpool fun _ => hstale] at hconn
  exact ((p.withoutStale idle).creation limit env).holds hd henv hconn

/-- What a pool hands out is aligned exactly if the oldest idle connection does not look healthy
by a reply that it owes. -/
lemma Owing.handsOutAligned_iff (hp : p.Owing d owed) (henv : env.Answered) :
    p.HandsOutAligned limit d env ↔
      ∀ pending, owed.head? = some pending → ¬ LooksHealthy limit d pending := by
  obtain ⟨hd, howed⟩ := hp
  obtain ⟨⟨own, hping⟩, -⟩ := id henv
  cases hpool : p.pool with
  | nil =>
    rw [hpool] at howed
    cases howed
    refine iff_of_true (aligned_of_holds fun conn hconn => ?_) (by simp)
    rw [getConnection_of_nil hpool] at hconn
    exact (p.creation limit env).holds hd henv hconn
  | cons front idle =>
    rw [hpool] at howed
    cases howed with
    | cons hfront hidle =>
      rename_i pending owed'
      simp only [List.head?_cons, Option.some.injEq, forall_eq']
      cases pending with
      | nil =>
        refine iff_of_true ?_ (by simp [LooksHealthy])
        rcases hfront.checkHealth_clean hping with ⟨c', hcheck, hholds⟩ | hcheck
        · refine aligned_of_holds fun conn hconn => ?_
          rw [getConnection_of_healthy hpool hfront.isConnected hcheck] at hconn
          exact Except.ok.inj hconn ▸ hholds
        · exact aligned_of_stale hpool hd henv hcheck
      | cons r rest =>
        rcases hfront.checkHealth_owing hping with ⟨hpong, c', hcheck, hholds⟩ | ⟨hpong, hcheck⟩
        · refine iff_of_false (fun h => ?_) (not_not.mpr ⟨r, rest, rfl, hpong⟩)
          have hconn : (p.getConnection limit env).1 = .ok c' := by
            rw [getConnection_of_healthy hpool hfront.isConnected hcheck]
          have hnil := hholds.unique (h c' hconn).1
          rw [Reply.encodeList_eq_flatMap, List.flatMap_append, List.flatMap_singleton] at hnil
          exact own.encode_ne_nil (List.append_eq_nil_iff.mp hnil).2
        · refine iff_of_true (aligned_of_stale hpool hd henv hcheck) ?_
          rintro ⟨r', rest', heq, hpong'⟩
          obtain ⟨rfl, -⟩ := List.cons.inj heq
          exact hpong hpong'

/-- Releasing a connection that owes replies. -/
lemma Owing.releaseConnection (hp : p.Owing d owed) {conn : Connection} {pending : List Reply}
    (hconn : conn.Holds d (Reply.encodeList pending)) :
    (p.releaseConnection conn).Owing d (if p.isFull then owed else owed ++ [pending]) := by
  obtain ⟨hd, howed⟩ := hp
  unfold ConnectionPool.releaseConnection
  rw [hconn.isConnected]
  cases p.isFull with
  | true => exact ⟨hd, howed⟩
  | false => exact ⟨hd, List.rel_append howed (.cons hconn .nil)⟩

/-- **When the health check rejects misaligned connections.**  A connection with unread replies
is released to a pool, whose idle connections may owe replies too.  The next `get_connection`
hands out connections that owe nothing if and only if the oldest reply that the connection at the
front of the queue owes is not decoded to `"PONG"`. -/
theorem getConnection_aligned_iff (hp : p.Owing d owed) {conn : Connection}
    {pending : List Reply} (hconn : conn.Holds d (Reply.encodeList pending))
    (henv : env.Answered) :
    (p.releaseConnection conn).HandsOutAligned limit d env ↔
      ∀ front, (owed ++ [pending]).head? = some front → ¬ LooksHealthy limit d front := by
  rw [(hp.releaseConnection hconn).handsOutAligned_iff henv]
  split_ifs with hfull
  · -- a full pool is not empty
    have hne : owed ≠ [] := by
      rintro rfl
      have hlen := hp.2.length_eq
      simp only [isFull, decide_eq_true_eq, hlen, List.length_nil] at hfull
      omega
    rw [List.head?_append_of_ne_nil _ hne]
  · rfl

/-- `+PONG` -/
def pong : Reply :=
  .simple ⟨[80, 79, 78, 71], by decide⟩

/-- A server that answers the health check and the authentication with `+PONG`. -/
def pongs : Acquire :=
  ⟨⟨.ok (), [.chunk ⟨[43, 80, 79, 78, 71, 13, 10], by decide⟩]⟩, .ok (),
    ⟨.ok (), [.chunk ⟨[43, 80, 79, 78, 71, 13, 10], by decide⟩]⟩⟩

lemma answered_pongs : pongs.Answered := by
  have hdelivers : pongs.ping.Delivers [pong] :=
    ⟨rfl, Feed.quiet_map_chunk [⟨[43, 80, 79, 78, 71, 13, 10], by decide⟩], by decide⟩
  exact ⟨⟨pong, hdelivers⟩, ⟨pong, hdelivers⟩⟩

/-- A connection whose reader will see this chunk. -/
def owingConnection (c : Chunk) : Connection :=
  ⟨"127.0.0.1", 6379, false, some ⟨.init, [.chunk c], []⟩⟩

lemma holds_owingConnection (c : Chunk) : (owingConnection c).Holds false c.bytes := by
  refine ⟨rfl, _, rfl, ⟨le_rfl, by simp [RespReader.init]⟩, Feed.quiet_map_chunk [c], ?_⟩
  have hinit := RespReader.unread_init_map_chunk [c]
  rwa [List.flatMap_singleton] at hinit

/-- A connection that owes `:5` is not handed out. -/
theorem getConnection_aligned_iff_integer :
    ((new "127.0.0.1" 6379 10 false none).releaseConnection
        (owingConnection ⟨[58, 53, 13, 10], by decide⟩)).HandsOutAligned 2 false pongs ↔
      ∀ front, ([] ++ [[Reply.integer 5]]).head? = some front → ¬ LooksHealthy 2 false front :=
  getConnection_aligned_iff ⟨rfl, .nil⟩
    (holds_owingConnection ⟨[58, 53, 13, 10], by decide⟩) answered_pongs

/-- **A misaligned connection passes the health check.**  A connection that owes the reply to a
`PING` of an interrupted pipeline is handed out, and then it owes another one. -/
theorem getConnection_misaligned :
    ¬ ((new "127.0.0.1" 6379 10 false none).releaseConnection
        (owingConnection ⟨[43, 80, 79, 78, 71, 13, 10], by decide⟩)).HandsOutAligned 2 false
          pongs := by
  have howing : (new "127.0.0.1" 6379 10 false none).Owing false [] := ⟨rfl, .nil⟩
  have hlooks : LooksHealthy 2 false [pong] := ⟨pong, [], rfl, rfl⟩
  have hpong : (owingConnection ⟨[43, 80, 79, 78, 71, 13, 10], by decide⟩).Holds false
      (Reply.encodeList [pong]) := holds_owingConnection _
  rw [(howing.releaseConnection hpong).handsOutAligned_iff answered_pongs]
  exact fun h => h [pong] rfl hlooks

end ConnectionPool

end KacheDB
