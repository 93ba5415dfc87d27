import KacheDB.AsyncClient
import Mathlib.Logic.Relation

/-!
# The asynchronous client, shared by tasks

Any number of tasks execute commands on one connected `AsyncKacheClient`.  They share its
`AsyncRespReader` and its `asyncio.StreamReader`, and a task gives way to another one only
where it awaits: in `drain`, and in a `read` that finds the buffer of the stream empty.

The `StreamReader` has room for one waiting task.  A second one that has to wait gets a
`RuntimeError`; the arrival of data wakes the waiting task, which goes on some steps later and
takes what the buffer holds by then.

In this system the replies go astray: a command may begin to read while the reply to an earlier
one is unread or half read, and a command that fails with the `RuntimeError` leaves its own
reply to the next one (`run_mismatch`).  `finished_own` says that nothing else is wrong: if no
command begins to read before all commands written earlier have finished, and every reply is
`Clean`, then every command ends with its own reply.
-/

namespace KacheDB

open Foundation

namespace AsyncTasks

/-- A task: between two commands, or suspended at an await point of a command, together with
the reply that the server has for this command. -/
inductive Task : Type where
  /-- Between two commands. -/
  | idle
  /-- `await self._writer.drain()`. -/
  | draining (own : Reply)
  /-- `await self._reader.read(...)`, in front of the rest `c` of `read_response`; `woken` says
  whether data has arrived for it. -/
  | reading (own : Reply) (c : Parser RespValue) (woken : Bool)

/-- The task is suspended in the reading of its reply. -/
def Task.IsReading : Task → Prop
  | .reading _ _ _ => True
  | _ => False

/-- The task is recorded: its command, if it has one, is among the unfinished ones. -/
def Task.Recorded {ι : Type} (i : ι) (unfinished : List (ι × Reply)) : Task → Prop
  | .idle => i ∉ unfinished.map Prod.fst
  | .draining own => (i, own) ∈ unfinished
  | .reading own _ _ => (i, own) ∈ unfinished

/-- The waiting task is told that data has arrived. -/
def Task.wake : Task → Task
  | .reading own c _ => .reading own c true
  | t => t

/-- The client with its tasks.

`reader` is `_resp_reader`; `buffer` and `waiter` are the fields `_buffer` and `_waiter` of the
`StreamReader`; `wire` is what the server has sent and has not arrived yet, and `sent` what the
client has written.  The last two fields record the past: the tasks whose command is written
and has not finished, in the order of the writes, and what the finished commands returned, each
with its own reply. -/
structure State (ι : Type) where
  decodeResponses : Bool
  reader : RespReader
  buffer : Bytes
  waiter : Option ι
  wire : Bytes
  sent : Bytes
  tasks : ι → Task
  unfinished : List (ι × Reply)
  finished : List (Reply × Except Exc RespValue)

variable {ι : Type} [DecidableEq ι]

namespace State

/-- A client that has just connected, and tasks between two commands. -/
def connected (d : Bool) : State ι :=
  ⟨d, .init, [], none, [], [], fun _ => .idle, [], []⟩

/-- The state with task `i` replaced. -/
def put (s : State ι) (i : ι) (t : Task) : State ι :=
  { s with tasks := Function.update s.tasks i t }

/-- `_execute` up to `drain`: the command is written, and the server will answer it behind the
answers to everything written before. -/
def issue (s : State ι) (i : ι) (args : List Arg) (own : Reply) : State ι :=
  { s with
    sent := s.sent ++ encodeCommand args
    wire := s.wire ++ own.encode
    unfinished := s.unfinished ++ [(i, own)] }.put i (.draining own)

/-- The command of task `i` ends. -/
def finish (s : State ι) (i : ι) (own : Reply) (res : Except Exc RespValue) : State ι :=
  { s with
    unfinished := s.unfinished.eraseP fun p => p.1 = i
    finished := (own, res.bind (decodeResponse s.decodeResponses)) :: s.finished }.put i .idle

/-- `read_response` has run as far as the arrived data go: it has ended, or it has to wait. -/
def proceed (s : State ι) (i : ι) (own : Reply) :
    Progress RespReader Chunk Exc RespValue × RespReader × List Chunk → State ι
  | (.done res, reader, rest) =>
    { s with reader := reader, buffer := rest.flatMap Chunk.bytes }.finish i own res
  | (.blocked c, reader, rest) =>
    match s.waiter with
    | some _ =>
      { s with reader := reader, buffer := rest.flatMap Chunk.bytes }.finish i own
        (.error (.runtimeError
          "read() called while another coroutine is already waiting for incoming data"))
    | none =>
      { s with reader := reader, buffer := rest.flatMap Chunk.bytes, waiter := some i }.put i
        (.reading own c false)

/-- `StreamReader.feed_data`: the data go into the buffer, and the waiting task is woken. -/
def feedData (s : State ι) (data : Chunk) (wire : Bytes) : State ι :=
  match s.waiter with
  | some i =>
    { s with buffer := s.buffer ++ data.bytes, wire := wire, waiter := none }.put i
      (s.tasks i).wake
  | none => { s with buffer := s.buffer ++ data.bytes, wire := wire }

end State

/-- What happens next: a task writes a command, a task behind `drain` begins to read its reply,
data arrive, or a woken task goes on. -/
inductive Action (ι : Type) : Type where
  | issue (i : ι) (args : List Arg) (own : Reply)
  | read (i : ι)
  | feed
  | resume (i : ι)

/-- One step.  The chunks are what successive reads take from the buffer of the stream. -/
inductive Step (limit : ℕ) (s : State ι) : Action ι → State ι → Prop
  | issue (i : ι) (args : List Arg) (own : Reply) (ht : s.tasks i = .idle) :
      Step limit s (.issue i args own) (s.issue i args own)
  | read (i : ι) (own : Reply) (chunks : List Chunk) (ht : s.tasks i = .draining own)
      (hcut : chunks.flatMap Chunk.bytes = s.buffer) :
      Step limit s (.read i)
        (s.proceed i own ((RespReader.parseFrame limit).drive s.reader chunks))
  | feed (data : Chunk) (wire : Bytes) (hwire : s.wire = data.bytes ++ wire) :
      Step limit s .feed (s.feedData data wire)
  -- the `finally` of the wait clears the waiter, whoever it is by then
  | resume (i : ι) (own : Reply) (c : Parser RespValue) (chunks : List Chunk)
      (ht : s.tasks i = .reading own c true) (hcut : chunks.flatMap Chunk.bytes = s.buffer) :
      Step limit s (.resume i)
        ({ s with waiter := none }.proceed i own (c.resume s.reader chunks))

/-- The states that some interleaving reaches. -/
def Reachable (limit : ℕ) (d : Bool) (s : State ι) : Prop :=
  Relation.ReflTransGen (fun s s' => ∃ a, Step limit s a s') (.connected d) s

/-- A command is answered with a clean reply, and it begins to read its reply when every command
written earlier has finished. -/
def Orderly (limit : ℕ) (s : State ι) : Action ι → Prop
  | .issue _ _ own => own.Clean limit
  | .read i => ∃ own rest, s.unfinished = (i, own) :: rest
  | .feed => True
  | .resume _ => True

/-- The states that some interleaving of orderly steps reaches. -/
def OrderlyReachable (limit : ℕ) (d : Bool) (s : State ι) : Prop :=
  Relation.ReflTransGen (fun s s' => ∃ a, Orderly limit s a ∧ Step limit s a s') (.connected d) s

/-! ## The invariant -/

/-- The records agree with the tasks, and every finished command ended with its own reply. -/
structure Ledger (limit : ℕ) (d : Bool) (s : State ι) : Prop where
  decodes : s.decodeResponses = d
  nodup : (s.unfinished.map Prod.fst).Nodup
  clean : ∀ p ∈ s.unfinished, p.2.Clean limit
  recorded : ∀ i, (s.tasks i).Recorded i s.unfinished
  finished : ∀ p ∈ s.finished, p.2 = p.1.decoded limit d

/-- No task is reading, and exactly the replies to the unfinished commands are unread. -/
structure Quiet (s : State ι) : Prop where
  noReader : ∀ i, ¬ (s.tasks i).IsReading
  waiter : s.waiter = none
  ok : respBuffer.Ok s.reader
  unread : respBuffer.view s.reader ++ (s.buffer ++ s.wire) =
    Reply.encodeList (s.unfinished.map Prod.snd)

/-- The first unfinished command, and no other one, is reading: its task is the waiting one
until data arrive, and what is left of its parser will end with its reply and leave the replies
to the other commands unread. -/
structure Reads (limit : ℕ) (s : State ι) (i : ι) (own : Reply) (rest : List (ι × Reply))
    (c : Parser RespValue) (woken : Bool) : Prop where
  unfinished : s.unfinished = (i, own) :: rest
  task : s.tasks i = .reading own c woken
  noOther : ∀ j, j ≠ i → ¬ (s.tasks j).IsReading
  waiter : s.waiter = if woken then none else some i
  woken : woken = true → s.buffer ≠ []
  waits : c.Waits s.reader
  promises : respBuffer.Promises c s.reader (s.buffer ++ s.wire) (own.outcome limit)
    (Reply.encodeList (rest.map Prod.snd))

/-- The invariant of orderly runs. -/
structure Inv (limit : ℕ) (d : Bool) (s : State ι) : Prop where
  ledger : Ledger limit d s
  stream : Quiet s ∨ ∃ i own rest c woken, Reads limit s i own rest c woken

variable {limit : ℕ} {d : Bool} {s s' : State ι}

/-- Any bytes can be cut into chunks. -/
lemma exists_chunks (b : Bytes) : ∃ js : List Chunk, js.flatMap respBuffer.content = b := by
  by_cases hb : b = []
  · exact ⟨[], hb.symm⟩
  · exact ⟨[⟨b, hb⟩], by simp [respBuffer]⟩

omit [DecidableEq ι]

/-- Another command in front of the unfinished ones. -/
lemma Task.recorded_cons {i j : ι} (hj : j ≠ i) (t : Task) (own : Reply)
    (rest : List (ι × Reply)) : t.Recorded j ((i, own) :: rest) ↔ t.Recorded j rest := by
  cases t <;> simp [Task.Recorded, hj]

/-- Another command behind the unfinished ones. -/
lemma Task.recorded_append {i j : ι} (hj : j ≠ i) (t : Task) (own : Reply)
    (rest : List (ι × Reply)) : t.Recorded j (rest ++ [(i, own)]) ↔ t.Recorded j rest := by
  cases t <;> simp [Task.Recorded, hj]

/-- A task has one unfinished command at most. -/
lemma Ledger.eq_of_mem (h : Ledger limit d s) {i : ι} {own own' : Reply}
    {rest : List (ι × Reply)} (hunf : s.unfinished = (i, own') :: rest)
    (hmem : (i, own) ∈ s.unfinished) : own = own' := by
  have hnodup := h.nodup
  rw [hunf, List.map_cons, List.nodup_cons] at hnodup
  rw [hunf, List.mem_cons] at hmem
  rcases hmem with heq | hmem
  · exact congrArg Prod.snd heq
  · exact absurd (List.mem_map_of_mem hmem) hnodup.1

/-- What the ledger says of the commands behind the first unfinished one. -/
lemma Ledger.tail (h : Ledger limit d s) {i : ι} {own : Reply} {rest : List (ι × Reply)}
    (hunf : s.unfinished = (i, own) :: rest) :
    i ∉ rest.map Prod.fst ∧ (rest.map Prod.fst).Nodup ∧ ∀ p ∈ rest, p.2.Clean limit := by
  have hnodup := h.nodup
  have hclean := h.clean
  rw [hunf, List.map_cons, List.nodup_cons] at hnodup
  rw [hunf] at hclean
  exact ⟨hnodup.1, hnodup.2, fun p hp => hclean p (List.mem_cons_of_mem _ hp)⟩

variable [DecidableEq ι]

/-! ## What a step preserves -/

/-- Writing a command adds its reply behind the others. -/
lemma Inv.issue (h : Inv limit d s) {i : ι} (ht : s.tasks i = .idle) (args : List Arg)
    {own : Reply} (hown : own.Clean limit) : Inv limit d (s.issue i args own) := by
  have hnew : i ∉ s.unfinished.map Prod.fst := by
    have hrec := h.ledger.recorded i
    rwa [ht] at hrec
  refine ⟨⟨h.ledger.decodes, ?_, ?_, ?_, h.ledger.finished⟩, ?_⟩
  · have hdisj : List.Disjoint (s.unfinished.map Prod.fst) [i] :=
      List.disjoint_singleton.mpr hnew
    simpa [State.issue, State.put] using
      List.nodup_append'.mpr ⟨h.ledger.nodup, List.nodup_singleton i, hdisj⟩
  · intro p hp
    rcases List.mem_append.mp hp with hp | hp
    · exact h.ledger.clean p hp
    · rw [List.mem_singleton.mp hp]
      exact hown
  · refine (Function.forall_update_iff s.tasks fun j t => t.Recorded j _).mpr ⟨?_, ?_⟩
    · exact List.mem_append_right _ (List.mem_singleton_self _)
    · intro j hj
      exact (Task.recorded_append hj _ own _).mpr (h.ledger.recorded j)
  · rcases h.stream with hq | ⟨k, own', rest, c, woken, hr⟩
    · refine .inl ⟨?_, hq.waiter, hq.ok, ?_⟩
      · exact (Function.forall_update_iff s.tasks fun _ t => ¬ t.IsReading).mpr
          ⟨id, fun j _ => hq.noReader j⟩
      · simpa [State.issue, State.put, Reply.encodeList_eq_flatMap] using
          congrArg (· ++ own.encode) hq.unread
    · have hki : k ≠ i := by
        rintro rfl
        have htask := hr.task
        rw [ht] at htask
        cases htask
      refine .inr ⟨k, own', rest ++ [(i, own)], c, woken, ?_⟩
      refine ⟨?_, ?_, ?_, hr.waiter, hr.woken, hr.waits, ?_⟩
      · simp [State.issue, State.put, hr.unfinished]
      · exact (Function.update_of_ne hki _ _).trans hr.task
      · exact (Function.forall_update_iff s.tasks fun j t => j ≠ k → ¬ t.IsReading).mpr
          ⟨fun _ => id, fun j _ => hr.noOther j⟩
      · simpa [State.issue, State.put, Reply.encodeList_eq_flatMap] using
          hr.promises.append own.encode

section Proceed

variable {i : ι} {own : Reply} {rest : List (ι × Reply)}

/-- The first unfinished command ends with the outcome of its reply. -/
lemma Ledger.finish (h : Ledger limit d s) (hunf : s.unfinished = (i, own) :: rest) :
    Ledger limit d (s.finish i own (own.outcome limit)) ∧
      (s.finish i own (own.outcome limit)).unfinished = rest := by
  obtain ⟨hnew, hnodup, hclean⟩ := h.tail hunf
  have hrest : (s.finish i own (own.outcome limit)).unfinished = rest := by
    simp [State.finish, State.put, hunf]
  refine ⟨⟨h.decodes, ?_, ?_, ?_, ?_⟩, hrest⟩
  · rwa [hrest]
  · rwa [hrest]
  · rw [hrest]
    refine (Function.forall_update_iff s.tasks fun j t => t.Recorded j rest).mpr ⟨hnew, ?_⟩
    intro j hj
    rw [← Task.recorded_cons hj _ own, ← hunf]
    exact h.recorded j
  · intro q hq
    rcases List.mem_cons.mp hq with rfl | hq
    · simp only [Reply.decoded, h.decodes]
    · exact h.finished q hq

/-- The first unfinished command stops in front of the rest of its parser. -/
lemma Ledger.suspend (h : Ledger limit d s) (hunf : s.unfinished = (i, own) :: rest)
    (c : Parser RespValue) (woken : Bool) : Ledger limit d (s.put i (.reading own c woken)) := by
  refine ⟨h.decodes, h.nodup, h.clean, ?_, h.finished⟩
  refine (Function.forall_update_iff s.tasks fun j t => t.Recorded j s.unfinished).mpr ⟨?_, ?_⟩
  · rw [hunf]
    exact List.mem_cons_self
  · exact fun j _ => h.recorded j

/-- If the first unfinished command reads alone and its parser keeps its promise, then the
invariant holds where the parser stops. -/
lemma Ledger.proceed (h : Ledger limit d s) (hunf : s.unfinished = (i, own) :: rest)
    (hother : ∀ j, j ≠ i → ¬ (s.tasks j).IsReading) (hwaiter : s.waiter = none)
    {p : Progress RespReader Chunk Exc RespValue × RespReader × List Chunk}
    (hp : respBuffer.Kept s.wire (own.outcome limit) (Reply.encodeList (rest.map Prod.snd)) p) :
    Inv limit d (s.proceed i own p) := by
  rcases p with ⟨res | c, reader, left⟩
  · obtain ⟨rfl, hok, hleft⟩ := hp
    -- the records do not depend on the reader and the buffer
    have hs : Ledger limit d { s with reader := reader, buffer := left.flatMap Chunk.bytes } :=
      ⟨h.decodes, h.nodup, h.clean, h.recorded, h.finished⟩
    obtain ⟨hledger, hrest⟩ := hs.finish hunf
    refine ⟨hledger, .inl ⟨?_, hwaiter, hok, ?_⟩⟩
    · exact (Function.forall_update_iff s.tasks fun _ t => ¬ t.IsReading).mpr ⟨id, hother⟩
    · rw [State.proceed, hrest, ← hleft]
      rfl
  · obtain ⟨rfl, hwaits, hpromises⟩ := hp
    have hs : Ledger limit d { s with reader := reader, buffer := [], waiter := some i } :=
      ⟨h.decodes, h.nodup, h.clean, h.recorded, h.finished⟩
    have hstop : s.proceed i own (.blocked c, reader, []) =
        { s with reader := reader, buffer := [], waiter := some i }.put i
          (.reading own c false) := by
      simp [State.proceed, hwaiter]
    rw [hstop]
    refine ⟨hs.suspend hunf c false, .inr ⟨i, own, rest, c, false, ?_⟩⟩
    refine ⟨hunf, Function.update_self .., ?_, rfl, nofun, hwaits, hpromises⟩
    exact (Function.forall_update_iff s.tasks fun j t => j ≠ i → ¬ t.IsReading).mpr
      ⟨fun hne => absurd rfl hne, fun j _ => hother j⟩

end Proceed

/-- The first unfinished command begins to read. -/
lemma Inv.read (h : Inv limit d s) {i : ι} {own : Reply} (ht : s.tasks i = .draining own)
    (hturn : ∃ own' rest, s.unfinished = (i, own') :: rest) {chunks : List Chunk}
    (hcut : chunks.flatMap Chunk.bytes = s.buffer) :
    Inv limit d (s.proceed i own ((RespReader.parseFrame limit).drive s.reader chunks)) := by
  obtain ⟨own', rest, hunf⟩ := hturn
  have hrec := h.ledger.recorded i
  rw [ht] at hrec
  obtain rfl := h.ledger.eq_of_mem hunf hrec
  have hclean : own.leftover limit = [] := h.ledger.clean _ hrec
  rcases h.stream with hq | ⟨k, own', rest', c, woken, hr⟩
  · refine h.ledger.proceed hunf (fun j _ => hq.noReader j) hq.waiter ?_
    have hunread : respBuffer.view s.reader ++ (s.buffer ++ s.wire) =
        own.encode ++ Reply.encodeList (rest.map Prod.snd) := by
      rw [hq.unread, hunf, List.map_cons, Reply.encodeList]
    have hpromises := (RespReader.reads_parseFrame limit own).promises hq.ok hunread
    rw [hclean, List.nil_append, ← hcut] at hpromises
    obtain ⟨js, hjs⟩ := exists_chunks s.wire
    rw [← hjs] at hpromises ⊢
    exact hpromises.drive
  · -- the first unfinished command would be behind `drain` and reading
    have hhead := hr.unfinished
    rw [hunf, List.cons.injEq, Prod.mk.injEq] at hhead
    have htask := hr.task
    rw [← hhead.1.1, ht] at htask
    cases htask

/-- The arrival of data. -/
lemma Inv.feedData (h : Inv limit d s) {data : Chunk} {wire : Bytes}
    (hwire : s.wire = data.bytes ++ wire) : Inv limit d (s.feedData data wire) := by
  have hbytes : (s.buffer ++ data.bytes) ++ wire = s.buffer ++ s.wire := by
    rw [hwire, List.append_assoc]
  have hne : s.buffer ++ data.bytes ≠ [] :=
    fun hnil => data.ne_nil (List.append_eq_nil_iff.mp hnil).2
  have hledger (w : Option ι) : Ledger limit d
      { s with buffer := s.buffer ++ data.bytes, wire := wire, waiter := w } :=
    ⟨h.ledger.decodes, h.ledger.nodup, h.ledger.clean, h.ledger.recorded, h.ledger.finished⟩
  rcases h.stream with hq | ⟨i, own, rest, c, woken, hr⟩
  · have hfeed : s.feedData data wire =
        { s with buffer := s.buffer ++ data.bytes, wire := wire, waiter := none } := by
      simp [State.feedData, hq.waiter]
    rw [hfeed]
    exact ⟨hledger none, .inl ⟨hq.noReader, rfl, hq.ok, hbytes ▸ hq.unread⟩⟩
  · have hpromises := hr.promises
    rw [← hbytes] at hpromises
    cases woken with
    | true =>
      have hwaiter : s.waiter = none := hr.waiter
      have hfeed : s.feedData data wire =
          { s with buffer := s.buffer ++ data.bytes, wire := wire, waiter := none } := by
        simp [State.feedData, hwaiter]
      rw [hfeed]
      refine ⟨hledger none, .inr ⟨i, own, rest, c, true, ?_⟩⟩
      exact ⟨hr.unfinished, hr.task, hr.noOther, rfl, fun _ => hne, hr.waits, hpromises⟩
    | false =>
      have hwaiter : s.waiter = some i := hr.waiter
      have hfeed : s.feedData data wire =
          { s with buffer := s.buffer ++ data.bytes, wire := wire, waiter := none }.put i
            (.reading own c true) := by
        simp [State.feedData, hwaiter, hr.task, Task.wake]
      rw [hfeed]
      refine ⟨(hledger none).suspend hr.unfinished c true, .inr ⟨i, own, rest, c, true, ?_⟩⟩
      refine ⟨hr.unfinished, Function.update_self .., ?_, rfl, fun _ => hne, hr.waits, hpromises⟩
      exact (Function.forall_update_iff s.tasks fun j t => j ≠ i → ¬ t.IsReading).mpr
        ⟨fun hself => absurd rfl hself, fun j _ => hr.noOther j⟩

/-- The woken task goes on. -/
lemma Inv.resume (h : Inv limit d s) {i : ι} {own : Reply} {c : Parser RespValue}
    (ht : s.tasks i = .reading own c true) {chunks : List Chunk}
    (hcut : chunks.flatMap Chunk.bytes = s.buffer) :
    Inv limit d ({ s with waiter := none }.proceed i own (c.resume s.reader chunks)) := by
  rcases h.stream with hq | ⟨k, own', rest, c', woken, hr⟩
  · exact absurd (by rw [ht]; trivial) (hq.noReader i)
  · -- it is the only one that reads
    have hki : i = k := by
      by_contra hne
      exact hr.noOther i hne (by rw [ht]; trivial)
    subst hki
    have htask := hr.task
    rw [ht, Task.reading.injEq] at htask
    obtain ⟨rfl, rfl, rfl⟩ := htask
    have hne : chunks ≠ [] := by
      rintro rfl
      exact hr.woken rfl hcut.symm
    rw [hr.waits.resume_eq_drive hne]
    have hledger : Ledger limit d { s with waiter := none } :=
      ⟨h.ledger.decodes, h.ledger.nodup, h.ledger.clean, h.ledger.recorded, h.ledger.finished⟩
    refine hledger.proceed hr.unfinished hr.noOther rfl ?_
    have hpromises := hr.promises
    rw [← hcut] at hpromises
    obtain ⟨js, hjs⟩ := exists_chunks s.wire
    rw [← hjs] at hpromises
    change respBuffer.Kept s.wire _ _ _
    rw [← hjs]
    exact hpromises.drive

/-- An orderly step keeps the invariant. -/
theorem Inv.step (h : Inv limit d s) {a : Action ι} (ha : Orderly limit s a)
    (hstep : Step limit s a s') : Inv limit d s' := by
  cases hstep with
  | issue i args own ht => exact h.issue ht args ha
  | read i own chunks ht hcut => exact h.read ht ha hcut
  | feed data wire hwire => exact h.feedData hwire
  | resume i own c chunks ht hcut => exact h.resume ht hcut

omit [DecidableEq ι] in
/-- The invariant holds on a client that has just connected. -/
lemma inv_connected : Inv limit d (.connected d : State ι) := by
  refine ⟨⟨rfl, by simp [State.connected], by simp [State.connected], fun i => ?_,
    by simp [State.connected]⟩, .inl ⟨fun i => id, rfl, ?_, rfl⟩⟩
  · simp [State.connected, Task.Recorded]
  · exact ⟨le_rfl, by simp [State.connected, RespReader.init]⟩

/-- The invariant holds in every state of an orderly run. -/
theorem OrderlyReachable.inv (h : OrderlyReachable limit d s) : Inv limit d s := by
  induction h with
  | refl => exact inv_connected
  | tail _ hstep ih =>
    obtain ⟨a, ha, hstep⟩ := hstep
    exact ih.step ha hstep

/-- **Reply matching for tasks in turn.**  However the steps of any number of tasks interleave
and wherever the chunks end: if no command begins to read before all commands written earlier
have finished, and every reply is clean, then every command that has finished ended with its own
reply. -/
theorem finished_own (limit : ℕ) (d : Bool) (s : State ι) (h : OrderlyReachable limit d s)
    (own : Reply) (res : Except Exc RespValue) (hfinished : (own, res) ∈ s.finished) :
    res = own.decoded limit d :=
  h.inv.ledger.finished (own, res) hfinished

/-- Two tasks that write before either reads, and whose replies arrive in pieces. -/
theorem finished_own_two :
    ∃ s : State Bool, OrderlyReachable 1 false s ∧ (.null, .ok .none) ∈ s.finished ∧
      .ok .none = Reply.null.decoded 1 false := by
  have h₀ : OrderlyReachable 1 false (.connected false : State Bool) := .refl
  have h₁ := h₀.tail ⟨.issue false [.str "GET", .str "a"] .null, rfl, .issue _ _ _ rfl⟩
  have h₂ := h₁.tail ⟨.issue true [.str "GET", .str "b"] .null, rfl, .issue _ _ _ rfl⟩
  have h₃ := h₂.tail ⟨.read false, ⟨.null, _, rfl⟩, .read _ .null [] rfl rfl⟩
  have h₄ := h₃.tail ⟨.feed, trivial, .feed ⟨[95, 13], by decide⟩ [10, 95, 13, 10] rfl⟩
  have h₅ := h₄.tail ⟨.resume false, trivial, .resume _ .null _ [⟨[95, 13], by decide⟩] rfl rfl⟩
  have h₆ := h₅.tail ⟨.feed, trivial, .feed ⟨[10, 95], by decide⟩ [13, 10] rfl⟩
  have h₇ := h₆.tail ⟨.resume false, trivial, .resume _ .null _ [⟨[10, 95], by decide⟩] rfl rfl⟩
  exact ⟨_, h₇, List.mem_cons_self,
    finished_own 1 false _ h₇ .null (.ok .none) List.mem_cons_self⟩

/-- A command returns the reply to another one.  While the first task waits for its reply, the
second one gets the `RuntimeError` behind its write; its next command, whose own reply is the
integer 7, returns the null that answers its first one. -/
theorem run_mismatch :
    ∃ s : State Bool, Reachable 1 false s ∧ (.integer 7, .ok .none) ∈ s.finished ∧
      (Reply.integer 7).decoded 1 false = .ok (.int 7) := by
  have h₀ : Reachable 1 false (.connected false : State Bool) := .refl
  have h₁ := h₀.tail ⟨_, .issue false [.str "GET", .str "a"] .null rfl⟩
  have h₂ := h₁.tail ⟨_, .read false .null [] rfl rfl⟩
  have h₃ := h₂.tail ⟨_, .issue true [.str "GET", .str "b"] .null rfl⟩
  have h₄ := h₃.tail ⟨_, .read true .null [] rfl rfl⟩
  have h₅ := h₄.tail ⟨_, .feed ⟨[95, 13, 10, 95, 13, 10], by decide⟩ [] rfl⟩
  have h₆ := h₅.tail ⟨_, .resume false .null _ [⟨[95, 13, 10, 95, 13, 10], by decide⟩] rfl rfl⟩
  have h₇ := h₆.tail ⟨_, .issue true [.str "INCR", .str "c"] (.integer 7) rfl⟩
  have h₈ := h₇.tail ⟨_, .read true (.integer 7) [] rfl rfl⟩
  exact ⟨_, h₈, List.mem_cons_self, rfl⟩

end AsyncTasks

end KacheDB
