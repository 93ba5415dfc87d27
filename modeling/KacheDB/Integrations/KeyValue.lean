import KacheDB.ClientMethods
import KacheDB.Foundation.Simulation
import Mathlib.Data.List.Dedup

/-!
# A server that is a map

The methods of the client against a server whose `GET`, `SET` and `DEL` behave as a map from keys
to values, without expiry.  `Store.handle` is what the server does in the calls of a client; the
three `run` lemmas are what the methods come to.

A client that takes a connection from its pool for each command may not get one: each pipeline
keeps the connection that it has taken.  `Metered.handle` counts the pipelines in front of any
server, and `Metered.run_metered` says that as long as the pool has a connection left the commands
do what the server does.
-/

namespace KacheDB

open Foundation

/-! ## The connections of a client -/

/-- A client has a connection of its own, inside its context manager, or it takes one of at most
so many from the pool for each command. -/
inductive ClientMode : Type where
  | dedicated
  | perCall (maxConnections : ℕ)

/-- What getting a connection raises when so many pipelines keep theirs. -/
def ClientMode.exhausted (pipelines : ℕ) : ClientMode → Option Exc
  | .dedicated => none
  | .perCall maxConnections =>
    if pipelines < maxConnections then none
    else some (.poolExhaustedError
      s!"Connection pool exhausted (max_connections={maxConnections})")

/-- A server, and the number of pipelines that its client has made; none of them gives its
connection back. -/
structure Metered (σ : Type) where
  server : σ
  pipelines : ℕ

namespace Metered

variable {σ : Type}

/-- A server with a new client. -/
def new (server : σ) : Metered σ :=
  ⟨server, 0⟩

/-- The server answers the calls for which the client has a connection. -/
def handle (mode : ClientMode) (h : Handler ClientCall ClientCall.Answer Exc σ) :
    Handler ClientCall ClientCall.Answer Exc (Metered σ)
  | .execute args, s =>
    match mode.exhausted s.pipelines with
    | some e => (.error e, s)
    | none => ((h (.execute args) s.server).1, ⟨(h (.execute args) s.server).2, s.pipelines⟩)
  | .pipeline, s =>
    match mode.exhausted s.pipelines with
    | some e => (.error e, s)
    | none => ((h .pipeline s.server).1, ⟨(h .pipeline s.server).2, s.pipelines + 1⟩)
  | .executePipeline pipe commands, s =>
    ((h (.executePipeline pipe commands) s.server).1,
      ⟨(h (.executePipeline pipe commands) s.server).2, s.pipelines⟩)

/-- The call is not that of making a pipeline. -/
def KeepsConnections : ClientCall → Prop
  | .pipeline => False
  | _ => True

/-- A command does not make a pipeline. -/
lemma keepsConnections (c : ClientCall) (hc : c.IsExecute) : KeepsConnections c := by
  cases c with
  | execute args => trivial
  | pipeline => exact hc.elim
  | executePipeline pipe commands => trivial

variable {mode : ClientMode} {h : Handler ClientCall ClientCall.Answer Exc σ} {α : Type}

/-- In a pool of so many connections there is one left as long as fewer pipelines have been
made. -/
lemma exhausted_eq_none_iff {pipelines : ℕ} : mode.exhausted pipelines = none ↔
    ∀ maxConnections, mode = .perCall maxConnections → pipelines < maxConnections := by
  cases mode with
  | dedicated => simp [ClientMode.exhausted]
  | perCall maxConnections => simp [ClientMode.exhausted]

/-- Where a connection is left behind some pipelines, one is left behind fewer. -/
lemma exhausted_mono {n n' : ℕ} (h : mode.exhausted n' = none) (hle : n ≤ n') :
    mode.exhausted n = none := by
  rw [exhausted_eq_none_iff] at h ⊢
  exact fun maxConnections hmode => hle.trans_lt (h maxConnections hmode)

/-- No pipeline is taken back. -/
lemma le_pipelines_run (mode : ClientMode) (h : Handler ClientCall ClientCall.Answer Exc σ)
    (m : ClientScript α) (s : Metered σ) :
    s.pipelines ≤ (m.run (handle mode h) s).2.pipelines := by
  have hkeep : ∀ (c : ClientCall) (t : Metered σ), True → s.pipelines ≤ t.pipelines →
      s.pipelines ≤ (handle mode h c t).2.pipelines := by
    intro c t _ hle
    cases c with
    | execute args =>
      simp only [handle]
      split <;> exact hle
    | pipeline =>
      simp only [handle]
      split
      · exact hle
      · exact hle.trans (Nat.le_succ _)
    | executePipeline pipe commands => exact hle
  exact m.calls_true.run_invariant hkeep le_rfl

/-- A script that makes a pipeline takes a connection, if there is one left. -/
lemma le_pipelines_run_pipeline (h : Handler ClientCall ClientCall.Answer Exc σ)
    (maxConnections : ℕ) (f : ℕ → ClientScript α) (s : Metered σ) :
    min (s.pipelines + 1) maxConnections ≤ (((Script.ask ClientCall.pipeline).bind f).run
      (handle (.perCall maxConnections) h) s).2.pipelines := by
  have hcall : min (s.pipelines + 1) maxConnections ≤
      (handle (.perCall maxConnections) h .pipeline s).2.pipelines := by
    simp only [handle, ClientMode.exhausted]
    by_cases hroom : s.pipelines < maxConnections
    · rw [if_pos hroom]
      exact min_le_left _ _
    · rw [if_neg hroom]
      exact (min_le_right _ _).trans (not_lt.mp hroom)
  rw [Script.run_bind, Script.run_ask]
  rcases hout : handle (.perCall maxConnections) h .pipeline s with ⟨e | pipe, s'⟩
  · rwa [hout] at hcall
  · rw [hout] at hcall
    exact hcall.trans (le_pipelines_run _ h (f pipe) s')

/-- As long as there is a connection, scripts that make no pipeline do what they do on the
server. -/
lemma run_metered {m : ClientScript α} (hm : m.Calls KeepsConnections) {s : Metered σ}
    (hroom : mode.exhausted s.pipelines = none) :
    m.run (handle mode h) s =
      ((m.run h s.server).1, ⟨(m.run h s.server).2, s.pipelines⟩) := by
  induction m generalizing s with
  | pure a => rfl
  | raise e => rfl
  | call c k ih =>
    obtain ⟨hc, hk⟩ := hm
    have hcall : handle mode h c s = ((h c s.server).1, ⟨(h c s.server).2, s.pipelines⟩) := by
      cases c with
      | execute args => simp only [handle, hroom]
      | pipeline => exact hc.elim
      | executePipeline pipe commands => rfl
    rw [Script.run_call, Script.run_call, hcall]
    exact ih _ (hk _) hroom

/-- A script that makes a pipeline first, and no other, does what it does on the server. -/
lemma run_pipeline_bind {f : ℕ → ClientScript α} (hf : ∀ pipe, (f pipe).Calls KeepsConnections)
    {s : Metered σ} {pipe : ℕ} {server : σ} (hpipe : h .pipeline s.server = (.ok pipe, server))
    (hroom : mode.exhausted s.pipelines = none) (hlater : mode.exhausted (s.pipelines + 1) = none) :
    ((Script.ask ClientCall.pipeline).bind f).run (handle mode h) s =
      ((((Script.ask ClientCall.pipeline).bind f).run h s.server).1,
        ⟨(((Script.ask ClientCall.pipeline).bind f).run h s.server).2, s.pipelines + 1⟩) := by
  have hcall : handle mode h .pipeline s = (.ok pipe, ⟨server, s.pipelines + 1⟩) := by
    simp only [handle, hroom, hpipe]
  have hone : (Script.ask ClientCall.pipeline).run (handle mode h) s =
      (.ok pipe, ⟨server, s.pipelines + 1⟩) := by
    rw [Script.run_ask, hcall]
  have hone' : (Script.ask ClientCall.pipeline).run h s.server = (.ok pipe, server) := by
    rw [Script.run_ask, hpipe]
  rw [Script.run_bind_of_ok hone, Script.run_bind_of_ok hone']
  exact run_metered (hf pipe) hlater

end Metered

/-! ## The server -/

/-- The keys of a server with their values. -/
abbrev Store : Type :=
  Bytes → Option Bytes

namespace Store

/-- A value as a reply. -/
def reply : Option Bytes → RespValue
  | some value => .bytes value
  | none => .none

/-- What the server answers to a command, and its next state. -/
def command (s : Store) : List Bytes → Except Exc RespValue × Store
  | name :: key :: rest =>
    if name = encodeUtf8 "GET" then (.ok (reply (s key)), s)
    else if name = encodeUtf8 "DEL" then
      (.ok (.int (((key :: rest).dedup.filter fun k => (s k).isSome).length : ℕ)),
        fun k => if k ∈ key :: rest then none else s k)
    else if name = encodeUtf8 "SET" then
      match rest with
      | value :: _ => (.ok (.str "OK"), Function.update s key (some value))
      | [] => (.error (.responseError "ERR wrong number of arguments"), s)
    else (.error (.responseError "ERR unknown command"), s)
  | _ => (.error (.responseError "ERR unknown command"), s)

/-- The command as the client executes it. -/
def execute (d : Bool) (s : Store) (args : List Arg) : Except Exc RespValue × Store :=
  ((s.command (args.map Arg.raw)).1.bind (decodeResponse d), (s.command (args.map Arg.raw)).2)

/-- The commands of a pipeline.  All are executed, and the first reply that is no value is
raised. -/
def executeAll (d : Bool) : Store → List (List Arg) → Except Exc (List RespValue) × Store
  | s, [] => (.ok [], s)
  | s, args :: rest =>
    let out := s.execute d args
    let outs := executeAll d out.2 rest
    (out.1.bind fun v => outs.1.map (v :: ·), outs.2)

/-- What the server does in the calls of a client that gets a connection for each of them. -/
def handle (d : Bool) : Handler ClientCall ClientCall.Answer Exc Store
  | .execute args, s => s.execute d args
  | .pipeline, s => (.ok 0, s)
  | .executePipeline _ commands, s => s.executeAll d commands

/-- The value under a text. -/
def text (s : Store) (key : String) : Option Bytes :=
  s (encodeUtf8 key)

/-- Different texts have different bytes. -/
lemma encodeUtf8_injective : Function.Injective encodeUtf8 := by
  intro s t h
  have hdec := congrArg decodeUtf8 h
  rw [decodeUtf8_encodeUtf8, decodeUtf8_encodeUtf8] at hdec
  exact Option.some.inj hdec

lemma text_update (s : Store) (key key' : String) (value : Option Bytes) :
    text (Function.update s (encodeUtf8 key) value) key' =
      Function.update s.text key value key' := by
  unfold text Function.update
  simp only [encodeUtf8_injective.eq_iff, eq_rec_constant, dite_eq_ite]

variable (d : Bool) (s : Store)

/-- `SET` with any options. -/
lemma execute_set (key value : String) (ex px : Option ℤ) :
    s.execute d (setCommand (.str key) (.str value) ex px) =
      (.ok (.str "OK"), Function.update s (encodeUtf8 key) (some (encodeUtf8 value))) := by
  have hget : encodeUtf8 "SET" ≠ encodeUtf8 "GET" := by decide
  have hdel : encodeUtf8 "SET" ≠ encodeUtf8 "DEL" := by decide
  have hcommand : ∀ options : List Arg,
      s.command (([Arg.str "SET", .str key, .str value] ++ options).map Arg.raw) =
        (.ok (.str "OK"), Function.update s (encodeUtf8 key) (some (encodeUtf8 value))) := by
    intro options
    simp only [List.cons_append, List.nil_append, List.map_cons, Arg.raw, command, hget, hdel,
      if_false, if_true]
  have hargs : ∃ options : List Arg, setCommand (.str key) (.str value) ex px =
      [Arg.str "SET", .str key, .str value] ++ options := by
    unfold setCommand
    split
    · exact ⟨_, rfl⟩
    · exact ⟨_, rfl⟩
    · exact ⟨[], (List.append_nil _).symm⟩
  obtain ⟨options, hoptions⟩ := hargs
  rw [execute, hoptions, hcommand]
  cases d <;> rfl

/-- `client.set(key, value, ex=ex, px=px)` -/
lemma run_set (key value : String) (ex px : Option ℤ) :
    (KacheClient.set (.str key) (.str value) ex px).run (handle d) s =
      (.ok true, Function.update s (encodeUtf8 key) (some (encodeUtf8 value))) := by
  rw [KacheClient.set, Script.run_map, KacheClient.command, Script.run_ask, handle, execute_set]
  rfl

/-- `client.get(key)` -/
lemma run_get (key : String) :
    (KacheClient.get (.str key)).run (handle d) s =
      (decodeResponse d (reply (s.text key)), s) := by
  rw [KacheClient.get, KacheClient.command, Script.run_ask, handle, execute]
  rfl

/-- `client.delete(key)` -/
lemma run_delete (key : String) :
    (KacheClient.delete [.str key]).run (handle d) s =
      (.ok (if (s.text key).isSome then 1 else 0),
        Function.update s (encodeUtf8 key) none) := by
  have hget : encodeUtf8 "DEL" ≠ encodeUtf8 "GET" := by decide
  have hstate : (fun k => if k ∈ [encodeUtf8 key] then none else s k) =
      Function.update s (encodeUtf8 key) none := by
    funext k
    by_cases hk : k = encodeUtf8 key
    · simp [hk]
    · simp [hk]
  have hcount : (([encodeUtf8 key].dedup.filter fun k => (s k).isSome).length : ℤ) =
      if (s.text key).isSome then 1 else 0 := by
    by_cases hvalue : (s (encodeUtf8 key)).isSome = true <;> simp [text, hvalue]
  have hcommand : s.command ([Arg.str "DEL", .str key].map Arg.raw) =
      (.ok (.int (if (s.text key).isSome then 1 else 0)),
        Function.update s (encodeUtf8 key) none) := by
    simp only [List.map_cons, List.map_nil, Arg.raw, command, hget, if_false, if_true, hcount,
      hstate]
  rw [KacheClient.delete, List.isEmpty_cons, if_neg Bool.false_ne_true, Script.run_map,
    KacheClient.command, Script.run_ask, handle, execute, hcommand]
  cases d <;> rfl

end Store

end KacheDB
