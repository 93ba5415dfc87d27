import KacheDB.Faults

/-!
# No command is executed twice

What the server executes while a program runs on a wire that fails is a part of what the program has
asked for: no command is executed more often than the program has sent it
(`Faulty.executed_le_issued`), whatever is cut off, whatever arrives late, and however the program
handles the exceptions.

A pipeline sends all its commands at once.  The server executes the first ones of them, and if the
client gets results, it has executed them all, and these are their results
(`Faulty.pipelined_prefix`).
-/

namespace KacheDB

open Foundation

/-- The arguments of a command as the server gets them. -/
def ClientCall.raw? : ClientCall → Option (List Bytes)
  | .execute args => some (rawArgs args)
  | _ => none

namespace Service

variable {σ : Type} (srv : Service σ)

/-- The server behind one more command. -/
lemma answerAll_concat_snd (commands : List (List Bytes)) (args : List Bytes) (s : σ) :
    (srv.answerAll (commands ++ [args]) s).2 =
      (srv.answer args (srv.answerAll commands s).2).2 := by
  induction commands generalizing s with
  | nil => rfl
  | cons first rest ih =>
    rw [List.cons_append, answerAll, answerAll]
    exact ih _

/-- The server is in the state behind some commands.  These and the delayed ones are among those
that have been issued. -/
def Accounts (s : σ) (t : σ × List (List Bytes)) (issued : List (List Bytes)) : Prop :=
  ∃ executed, t.1 = (srv.answerAll executed s).2 ∧
    (executed : Multiset (List Bytes)) + (t.2 : Multiset (List Bytes)) ≤ issued

variable {srv} {s : σ} {t : σ × List (List Bytes)} {issued : List (List Bytes)}

/-- A delayed command has been issued before. -/
lemma Accounts.comeLate (h : srv.Accounts s t issued) (late : ℕ × Bool) :
    srv.Accounts s (srv.comeLate t late) issued := by
  obtain ⟨executed, hstate, hle⟩ := h
  unfold Service.comeLate
  cases hcommand : t.2[late.1]? with
  | none => exact ⟨executed, hstate, hle⟩
  | some args =>
    obtain ⟨hlt, hargs⟩ := List.getElem?_eq_some_iff.mp hcommand
    have hperm : (t.2 : Multiset (List Bytes)) = {args} + (t.2.eraseIdx late.1 : List _) := by
      rw [Multiset.singleton_add, Multiset.cons_coe, Multiset.coe_eq_coe, ← hargs]
      exact (List.getElem_cons_eraseIdx_perm hlt).symm
    rw [hperm] at hle
    cases late.2 with
    | false =>
      refine ⟨executed, hstate, le_trans ?_ hle⟩
      exact add_le_add_right (Multiset.le_add_left _ _) _
    | true =>
      refine ⟨executed ++ [args], ?_, le_of_eq_of_le ?_ hle⟩
      · rw [answerAll_concat_snd, ← hstate]
        rfl
      · rw [← Multiset.coe_add, Multiset.coe_singleton, add_assoc]

/-- One more command has been issued. -/
lemma Accounts.lossy (h : srv.Accounts s t issued) (limit : ℕ) (d : Bool) (turn : Turn)
    (args : List Arg) :
    srv.Accounts s (srv.lossy limit d turn (.execute args) t).2 (issued ++ [rawArgs args]) := by
  have hlate : srv.Accounts s (turn.late.foldl srv.comeLate t) issued :=
    List.foldlRecOn (motive := fun t => srv.Accounts s t issued) turn.late srv.comeLate h
      fun t ht late _ => ht.comeLate late
  simp only [Service.lossy]
  generalize turn.late.foldl srv.comeLate t = u at hlate ⊢
  obtain ⟨u, pending⟩ := u
  obtain ⟨executed, hstate, hle⟩ := hlate
  obtain rfl : u = (srv.answerAll executed s).2 := hstate
  have hmore : (executed : Multiset (List Bytes)) + (pending : Multiset (List Bytes)) +
      {rawArgs args} ≤ (issued ++ [rawArgs args] : List _) := by
    rw [← Multiset.coe_add, Multiset.coe_singleton]
    exact add_le_add_left hle _
  have hfewer : (executed : Multiset (List Bytes)) + (pending : Multiset (List Bytes)) ≤
      (issued ++ [rawArgs args] : List _) :=
    (Multiset.le_add_right _ _).trans hmore
  have hexecuted : srv.Accounts s
      ((srv.answer (rawArgs args) (srv.answerAll executed s).2).2, pending)
      (issued ++ [rawArgs args]) := by
    refine ⟨executed ++ [rawArgs args], (srv.answerAll_concat_snd _ _ _).symm, ?_⟩
    rw [← Multiset.coe_add, Multiset.coe_singleton, add_right_comm]
    exact hmore
  cases turn.fate with
  | answered => exact hexecuted
  | unanswered e => exact hexecuted
  | delayed e =>
    refine ⟨executed, rfl, ?_⟩
    rw [← Multiset.coe_add, Multiset.coe_singleton, ← add_assoc]
    exact hmore
  | unsent e => exact ⟨executed, rfl, hfewer⟩

end Service

namespace Faulty

variable {σ : Type} {srv : Service σ}

/-- **No command is executed twice.**  What the server executes while a program runs on a wire that
fails is a part of the commands that the program has issued, each as often as it has issued it. -/
theorem executed_le_issued {α : Type} (limit : ℕ) (host : String) (port maxConnections : ℕ)
    (d : Bool) (password : Option String) (hup : srv.Up password) (ops : List ClientOp)
    (hops : ∀ op ∈ ops, op.Conforms) (routes : ℕ → Route) (m : ClientScript α)
    (hm : m.Calls ClientCall.IsExecute) (s : σ) (client : KacheClient)
    (hclient : client =
      ops.foldl (KacheClient.step limit) (.new host port maxConnections d password)) :
    ∃ executed, (runOn srv limit routes client s m).2 = (srv.answerAll executed s).2 ∧
      (executed : Multiset (List Bytes)) ≤
        ((m.run (Script.traced (handle srv limit routes)) (new client s, [])).2.2.filterMap
          ClientCall.raw? : List (List Bytes)) := by
  subst hclient
  have htracks := tracks_foldl_step limit host port maxConnections d password hops s
  generalize ops.foldl (KacheClient.step limit) (.new host port maxConnections d password) =
    client at htracks ⊢
  obtain ⟨turns, -, hlast, hcalls⟩ :=
    (simulatesSome hup limit d routes).traced.run (s := (new client s, [])) (t := ((s, []), [])) hm
      ⟨htracks, rfl⟩
  -- the commands that have been executed, along the run against the lossy service
  have hstep : ∀ (call : ClientCall)
      (u : ((σ × List (List Bytes)) × List ClientCall) × Stream' Turn), call.IsExecute →
      srv.Accounts s u.1.1 (u.1.2.filterMap ClientCall.raw?) →
      srv.Accounts s
        (Handler.chosen (fun turn => Script.traced (srv.lossy limit d turn)) call u).2.1.1
        ((Handler.chosen (fun turn => Script.traced (srv.lossy limit d turn)) call
          u).2.1.2.filterMap ClientCall.raw?) := by
    rintro call ⟨⟨t, calls⟩, turns⟩ hcall hinv
    cases call with
    | pipeline => exact hcall.elim
    | executePipeline i commands => exact hcall.elim
    | execute args =>
      simp only [Handler.chosen, Script.traced, List.filterMap_append]
      exact hinv.lossy limit d turns.head args
  obtain ⟨executed, hstate, hle⟩ :=
    Script.Calls.run_invariant hstep hm (s := (((s, []), []), turns)) ⟨[], rfl, by simp⟩
  refine ⟨executed, ?_, ?_⟩
  · rw [runOn, ← hstate, ← hlast.server_eq, (Script.run_traced m (new client s) []).2]
  · rw [hcalls]
    exact (Multiset.le_add_right _ _).trans hle

end Faulty

/-! ## Pipelines -/

namespace Connection

/-- The bytes that are unread on the connection or still missing. -/
def Awaits (d : Bool) (missing : Bytes) (c : Connection) (bytes : Bytes) : Prop :=
  c.decodeResponses = d ∧
    ∃ s, c.sock = some s ∧ respBuffer.Ok s.reader ∧ s.unread ++ missing = bytes

variable {limit : ℕ} {d : Bool} {missing : Bytes} {c : Connection}

/-- What is read in full is a reply and leaves the next ones. -/
lemma Awaits.readResponse_ok {reply : Reply} {rest : Bytes}
    (h : c.Awaits d missing (reply.encode ++ rest)) {v : RespValue}
    (hv : (c.readResponse limit).1 = .ok v) :
    reply.decoded limit d = .ok v ∧ (c.readResponse limit).2.Awaits d missing rest := by
  obtain ⟨hd, s, hs, hok, hbytes⟩ := h
  obtain ⟨hok', hcase⟩ := @Socket.read_spec s limit reply missing rest hok hbytes
  rcases hread : s.read limit with ⟨e | w, s'⟩
  · rw [Connection.readResponse_of_error hs hread] at hv
    cases hv
  · rw [hread] at hok' hcase
    rw [Connection.readResponse_of_ok hs hread] at hv ⊢
    rcases hcase with ⟨hout, hleft, -⟩ | ⟨e, he, -⟩
    · have hclean : reply.leftover limit = [] := Reply.clean_of_isValue ⟨w, hout.symm⟩
      rw [hclean, List.nil_append] at hleft
      refine ⟨?_, hd, s', rfl, hok', hleft⟩
      rw [Reply.decoded, ← hout, ← hd]
      exact hv
    · cases he

/-- Replies that are all read are those that are awaited. -/
lemma Awaits.collect_ok (frames : List Reply) (h : c.Awaits d missing (Reply.encodeList frames))
    {vs : List RespValue}
    (hvs : (collect (Connection.readResponse limit) frames.length c).1 = .ok vs) :
    Reply.values limit d frames = .ok vs := by
  induction frames generalizing c vs with
  | nil => exact hvs
  | cons reply rest ih =>
    rw [List.length_cons, collect] at hvs
    have hread : ∀ v, (c.readResponse limit).1 = .ok v → reply.decoded limit d = .ok v ∧
        (c.readResponse limit).2.Awaits d missing (Reply.encodeList rest) :=
      fun _ => h.readResponse_ok
    rcases hres : c.readResponse limit with ⟨e | v, c'⟩
    · rw [hres] at hvs
      cases hvs
    · simp only [hres] at hvs hread
      obtain ⟨hv, hrest⟩ := hread v rfl
      rcases hcollect : collect (Connection.readResponse limit) rest.length c' with ⟨e | ws, c''⟩
      · rw [hcollect] at hvs
        cases hvs
      · rw [hcollect] at hvs
        obtain rfl : v :: ws = vs := Except.ok.inj hvs
        rw [Reply.values, hv, ih hrest (congrArg Prod.fst hcollect)]
        rfl

end Connection

namespace Service

variable {σ : Type} {srv : Service σ}

/-- Of the commands of a pipeline the server executes the first ones, and what comes back is a part
of their answers. -/
lemma transmit_encodeCommands (t : Transit) (commands : List (List Arg)) (s : σ) :
    ∃ k, k ≤ commands.length ∧
      (srv.transmit t (encodeCommands commands) s).2 =
        (srv.answerAll ((commands.take k).map rawArgs) s).2 ∧
      respBuffer.data (srv.transmit t (encodeCommands commands) s).1.events <+:
        Reply.encodeList (srv.answerAll ((commands.take k).map rawArgs) s).1 := by
  obtain ⟨k, hk, hreceived, -⟩ := received_cut commands
    (t.path.there.pieces ((encodeCommands commands).take t.arriving))
    ((encodeCommands commands).drop t.arriving)
    (by rw [t.path.there.joined, List.take_append_drop])
  refine ⟨k, hk, ?_, ?_⟩
  · rw [transmit, hreceived]
  · rw [data_transmit, hreceived]
    exact List.take_prefix _ _

end Service

namespace Reply

variable {limit : ℕ} {d : Bool}

/-- An error has no value. -/
lemma decoded_unknownCommand_ne_ok (v : RespValue) : unknownCommand.decoded limit d ≠ .ok v := by
  rcases limit with _ | limit
  · simp [decoded, Except.bind]
  · have herr : unknownCommand.outcome (limit + 1) = .error (.responseError "ERR") := rfl
    simp [decoded, herr, Except.bind]

/-- If there are values, then each of the replies has one. -/
lemma exists_decoded_of_values {frames : List Reply} {vs : List RespValue}
    (h : Reply.values limit d frames = .ok vs) {r : Reply} (hr : r ∈ frames) :
    ∃ v, r.decoded limit d = .ok v := by
  induction frames generalizing vs with
  | nil => cases hr
  | cons first rest ih =>
    rw [Reply.values] at h
    cases hfirst : first.decoded limit d with
    | error e =>
      rw [hfirst] at h
      cases h
    | ok v =>
      cases hrest : Reply.values limit d rest with
      | error e =>
        rw [hfirst, hrest] at h
        cases h
      | ok ws =>
        rcases List.mem_cons.mp hr with rfl | hr
        · exact ⟨v, hfirst⟩
        · exact ih hrest hr

end Reply

namespace Pipeline

variable {limit : ℕ} {d : Bool} {conn : Connection} {commands : List (List Arg)}

/-- A pipeline that returns results has been sent, and the results are those of any replies of
which so much comes back. -/
lemma values_of_execute (hconn : conn.Clean d) (hne : commands ≠ []) {x : Exchange}
    {vs : List RespValue} (hvs : ((Pipeline.mk conn commands).execute limit x).1 = .ok vs) :
    conn.isConnected = true ∧ ∀ frames : List Reply, frames.length = commands.length →
      respBuffer.data x.events <+: Reply.encodeList frames →
        Reply.values limit d frames = .ok vs := by
  obtain ⟨hsettled, hd⟩ := hconn
  have hempty : commands.isEmpty = false := List.isEmpty_eq_false_iff.mpr hne
  simp only [execute, hempty, Connection.sendPacked, Connection.sendAll] at hvs
  cases hs : conn.sock with
  | none => simp [hs] at hvs
  | some s =>
    cases hsend : x.sendOutcome with
    | error e => simp [hs, hsend] at hvs
    | ok u =>
      refine ⟨by simp [Connection.isConnected, hs], fun frames hlength hdata => ?_⟩
      obtain ⟨missing, hmissing⟩ := hdata
      simp only [hs, hsend, ← hlength, Bool.false_eq_true, if_false] at hvs
      have hawaits : Connection.Awaits d missing
          { conn with sock := some (s.write (encodeCommands commands) x.events) }
          (Reply.encodeList frames) := by
        refine ⟨hd, _, rfl, (hsettled s hs).ok, ?_⟩
        rw [Socket.unread_write, (hsettled s hs).unread_eq_nil, List.nil_append, hmissing]
      exact hawaits.collect_ok frames hvs

/-- What becomes of a pipeline that is sent like this: the server executes the first commands, and
if there are results, then all of them, and the results are the values of their answers. -/
lemma execute_transmit {σ : Type} (srv : Service σ) (limit : ℕ) (hconn : conn.Clean d)
    (hne : commands ≠ []) (t : Transit) (s : σ) :
    ∃ k, k ≤ commands.length ∧
      (srv.transmit t (encodeCommands commands) s).2 =
        (srv.answerAll ((commands.take k).map rawArgs) s).2 ∧
      ∀ vs, ((Pipeline.mk conn commands).execute limit
          (srv.transmit t (encodeCommands commands) s).1).1 = .ok vs →
        conn.isConnected = true ∧ k = commands.length ∧
          Reply.values limit d (srv.answerAll (commands.map rawArgs) s).1 = .ok vs := by
  obtain ⟨k, hk, hnext, hdata⟩ := srv.transmit_encodeCommands t commands s
  refine ⟨k, hk, hnext, fun vs hvs => ?_⟩
  obtain ⟨hconnected, hvalues⟩ := values_of_execute hconn hne hvs
  have hanswered : (srv.answerAll ((commands.take k).map rawArgs) s).1.length = k := by
    rw [srv.length_answerAll, List.length_map, List.length_take_of_le hk]
  -- error replies in the place of those that are missing
  have hall := hvalues ((srv.answerAll ((commands.take k).map rawArgs) s).1 ++
    List.replicate (commands.length - k) unknownCommand) (by
      rw [List.length_append, hanswered, List.length_replicate, Nat.add_sub_cancel' hk]) (by
      rw [Reply.encodeList_eq_flatMap, List.flatMap_append, ← Reply.encodeList_eq_flatMap]
      exact hdata.trans (List.prefix_append _ _))
  rcases Nat.lt_or_eq_of_le hk with hlt | rfl
  · have hmem : unknownCommand ∈ (srv.answerAll ((commands.take k).map rawArgs) s).1 ++
        List.replicate (commands.length - k) unknownCommand :=
      List.mem_append_right _ (List.mem_replicate.mpr ⟨by omega, rfl⟩)
    obtain ⟨v, hv⟩ := Reply.exists_decoded_of_values hall hmem
    exact absurd hv (Reply.decoded_unknownCommand_ne_ok v)
  · rw [Nat.sub_self, List.replicate_zero, List.append_nil, List.take_length] at hall
    exact ⟨hconnected, rfl, hall⟩

end Pipeline

namespace Faulty

variable {σ : Type} {srv : Service σ}

/-- A command twice, on a connection that times out. -/
theorem executed_le_issued_counter :
    ∃ executed, (runOn Remote.counter 2 timingOutRoutes
          ([.connect Checkouts.dialsOnly].foldl (KacheClient.step 2)
            (.new "127.0.0.1" 6379 1 false none)) 4 (twice [.str "INCR", .str "k"])).2 =
        (Remote.counter.answerAll executed 4).2 ∧
      (executed : Multiset (List Bytes)) ≤
        (((twice [.str "INCR", .str "k"]).run
          (Script.traced (handle Remote.counter 2 timingOutRoutes))
          (new ([.connect Checkouts.dialsOnly].foldl (KacheClient.step 2)
            (.new "127.0.0.1" 6379 1 false none)) 4, [])).2.2.filterMap
          ClientCall.raw? : List (List Bytes)) :=
  executed_le_issued 2 "127.0.0.1" 6379 1 false none (Remote.up_counter none)
    [.connect Checkouts.dialsOnly] conforms_connect timingOutRoutes _ (calls_twice _) 4 _ rfl

end Faulty

end KacheDB
