import KacheDB.Foundation.Expiry
import KacheDB.Foundation.Simulation
import KacheDB.Semantic.Server

/-!
# Lifetimes

`set` sends a lifetime with its copy and with its item (`EX`), and the server of a semantic cache
drops what has expired.  `TimedServer` is the server with the ends of these lifetimes and a clock;
a call takes no time, and time goes on between the calls.

`TimedServer.alive` is what such a server has at the moment.  As long as only positive lifetimes are
sent, the calls do to it what they do to a server without a clock (`simulates_alive`), so that a
`get` finds what it finds on `alive` (`run_get_timed`).
-/

namespace KacheDB

open Foundation

/-- An item without the call that wrote it, of which the server knows nothing. -/
def VectorItem.content (item : VectorItem) : VectorItem :=
  { item with origin := none }

/-- The state of a server with a clock, in seconds. -/
structure TimedServer where
  kv : String → Option (Expiring ℚ Stored)
  index : String → String → Option (Expiring ℚ VectorItem)
  now : ℚ

namespace TimedServer

/-- A server on which nothing expires. -/
def ofServer (s : Server) (now : ℚ) : TimedServer where
  kv key := (s.kv key).map fun stored => ⟨stored, none⟩
  index name itemId := (s.index name itemId).map fun item => ⟨item, none⟩
  now := now

variable (t : TimedServer)

/-- What has not expired. -/
def alive : Server where
  kv key := Expiring.shown t.now (t.kv key)
  index name itemId := Expiring.shown t.now (t.index name itemId)

/-- The end of a lifetime that begins now. -/
def endOf (ex : Option ℤ) : Option ℚ :=
  ex.map fun seconds : ℤ => t.now + (seconds : ℚ)

/-- The store with another entry under a key. -/
def setValue (key : String) (entry : Option (Expiring ℚ Stored)) : TimedServer :=
  { t with kv := Function.update t.kv key entry }

/-- The index with another entry under an id. -/
def setItem (name itemId : String) (entry : Option (Expiring ℚ VectorItem)) : TimedServer :=
  { t with index := Function.update t.index name (Function.update (t.index name) itemId entry) }

/-- Time goes on. -/
def wait (duration : ℚ≥0) : TimedServer :=
  { t with now := t.now + duration }

lemma alive_ofServer (s : Server) (now : ℚ) : (ofServer s now).alive = s := by
  have hshown {V : Type} (entry : Option V) :
      Expiring.shown now (entry.map fun v => (⟨v, none⟩ : Expiring ℚ V)) = entry := by
    cases entry with
    | none => rfl
    | some v => exact Expiring.shown_of_not_over (by simp [Expiring.Over])
  rw [alive]
  congr 1
  · funext key
    exact hshown _
  · funext name itemId
    exact hshown _

lemma alive_setValue (key : String) (entry : Option (Expiring ℚ Stored)) :
    (t.setValue key entry).alive = t.alive.setValue key (Expiring.shown t.now entry) := by
  rw [alive, Server.setValue]
  congr 1
  funext key'
  simp only [setValue, Function.update_apply]
  split_ifs <;> rfl

lemma alive_setItem (name itemId : String) (entry : Option (Expiring ℚ VectorItem)) :
    (t.setItem name itemId entry).alive =
      t.alive.setItem name itemId (Expiring.shown t.now entry) := by
  rw [alive, Server.setItem]
  congr 1
  funext name' itemId'
  simp only [setItem, Function.update_apply]
  split_ifs with hname
  · subst hname
    simp only [Function.update_apply]
    split_ifs <;> rfl
  · rfl

/-- A positive lifetime has just begun. -/
lemma shown_endOf {V : Type} (v : V) {ex : Option ℤ} (h : ∀ seconds ∈ ex, 0 < seconds) :
    Expiring.shown t.now (some ⟨v, t.endOf ex⟩) = some v := by
  apply Expiring.shown_of_not_over
  rintro ⟨moment, hmoment, hle⟩
  obtain ⟨seconds, hseconds, rfl⟩ := Option.map_eq_some_iff.mp hmoment
  have hpos : (0 : ℚ) < seconds := by exact_mod_cast h seconds hseconds
  linarith

end TimedServer

/-- Something that happens to a cache and its server. -/
inductive CacheEvent : Type where
  | wait (duration : ℚ≥0)
  | call (op : CacheOp)

variable {F : Type}

namespace CacheCall

/-- The call changes nothing on the server. -/
def Reads : CacheCall F → Prop
  | .encode _ | .get _ | .vsearch _ => True
  | .set _ _ _ | .vadd _ | .vdel _ _ => False

/-- The lifetime that the call sends, if it sends one, is positive. -/
def Lasts : CacheCall F → Prop
  | .set _ _ ex => ∀ seconds ∈ ex, 0 < seconds
  | .vadd args => ∀ seconds ∈ args.ex, 0 < seconds
  | _ => True

end CacheCall

namespace Backend

variable (b : Backend F) (floats : Floats F) (c : SemanticCache F)

/-- The client and the server answer the calls of a cache, with the lifetimes that they send. -/
def timedHandle (writer : Option SetArgs) :
    Handler (CacheCall F) CacheCall.Answer Exc TimedServer
  | .encode text, t => (b.encode text, t)
  | .get key, t => ((b.handle writer (.get key) t.alive).1, t)
  | .set key value ex, t =>
    (.ok true, t.setValue key (some ⟨⟨encodeUtf8 value, writer⟩, t.endOf ex⟩))
  | .vadd args, t =>
    match b.pack args.vector with
    | .error e => (.error e, t)
    | .ok vector =>
      (.ok true, t.setItem args.index args.itemId
        (some ⟨b.itemOf writer args vector, t.endOf args.ex⟩))
  | .vsearch args, t => ((b.handle writer (.vsearch args) t.alive).1, t)
  | .vdel index itemId, t =>
    (.ok (t.alive.index index itemId).isSome, t.setItem index itemId none)

/-- The state after one event. -/
def timedStep (t : TimedServer) : CacheEvent → TimedServer
  | .wait duration => t.wait duration
  | .call (.set r) => ((c.set r).run (b.timedHandle (some r)) t).2
  | .call (.delete prompt) => ((c.delete prompt).run (b.timedHandle none) t).2

/-- The state after these events. -/
def runEvents (events : List CacheEvent) (t : TimedServer) : TimedServer :=
  events.foldl (b.timedStep c) t

variable {b floats c}

/-- **Without a clock.**  With positive lifetimes the calls are answered as on a server on which
nothing expires, and change what has not expired in the same way. -/
theorem simulates_alive (writer : Option SetArgs) :
    Handler.Simulates CacheCall.Lasts (fun t s => t.alive = s) (b.timedHandle writer)
      (b.handle writer) := by
  rintro call t _ hlasts rfl
  cases call with
  | encode text => exact ⟨rfl, rfl⟩
  | get key =>
    refine ⟨rfl, ?_⟩
    simp only [timedHandle, handle]
    cases t.alive.kv key <;> rfl
  | set key value ex =>
    refine ⟨rfl, ?_⟩
    simp only [timedHandle, handle, TimedServer.alive_setValue]
    rw [t.shown_endOf _ hlasts]
  | vadd args =>
    simp only [timedHandle, handle]
    cases b.pack args.vector with
    | error e => exact ⟨rfl, rfl⟩
    | ok vector =>
      refine ⟨rfl, ?_⟩
      dsimp only
      rw [TimedServer.alive_setItem, t.shown_endOf _ hlasts]
  | vsearch args =>
    refine ⟨rfl, ?_⟩
    simp only [timedHandle, handle]
    cases b.pack args.queryVector <;> rfl
  | vdel index itemId =>
    refine ⟨rfl, ?_⟩
    simp only [timedHandle, handle, TimedServer.alive_setItem]
    rfl

/-! ## Writing -/

/-- The calls of `set`. -/
lemma calls_set {P : CacheCall F → Prop} {r : SetArgs}
    (hset : P (.set (c.docKey (strip r.prompt)) r.response (c.expiry r)))
    (hencode : P (.encode r.prompt)) (hvadd : ∀ vector, P (.vadd (c.vaddArgs r vector))) :
    (c.set r).Calls P := by
  have hcopy : (c.storeCopy r).Calls P := by
    unfold SemanticCache.storeCopy
    split_ifs
    · exact (Script.Calls.ask hset).bind fun _ => .pure ()
    · exact .pure ()
  exact hcopy.bind fun _ => (Script.Calls.ask hencode).bind fun vector => .ask (hvadd vector)

/-- The lifetimes that a call of the cache sends are positive. -/
def OpLasts (c : SemanticCache F) : CacheOp → Prop
  | .set r => ∀ seconds ∈ c.expiry r, 0 < seconds
  | .delete _ => True

/-- Calls one after the other, while no time goes on, do what they do without a clock. -/
theorem alive_runEvents {ops : List CacheOp} (hops : ∀ op ∈ ops, OpLasts c op) (t : TimedServer) :
    (b.runEvents c (ops.map .call) t).alive = b.runOps c ops t.alive := by
  induction ops generalizing t with
  | nil => rfl
  | cons op ops ih =>
    have hstep : (b.timedStep c t (.call op)).alive = b.step c t.alive op := by
      have hop := hops op List.mem_cons_self
      cases op with
      | set r => exact ((simulates_alive (some r)).run (calls_set hop trivial fun _ => hop) rfl).2
      | delete prompt =>
        have hcalls : (c.delete prompt).Calls CacheCall.Lasts := Script.Calls.ask trivial
        exact ((simulates_alive none).run hcalls rfl).2
    have hrest := ih (fun op' hop' => hops op' (List.mem_cons_of_mem op hop'))
      (b.timedStep c t (.call op))
    rw [hstep] at hrest
    exact hrest

/-- So do calls on a server whose entries have no lifetimes. -/
theorem runEvents_ofServer {ops : List CacheOp} (hops : ∀ op ∈ ops, OpLasts c op) (s : Server)
    (now : ℚ) : (b.runEvents c (ops.map .call) (.ofServer s now)).alive = b.runOps c ops s := by
  rw [alive_runEvents hops, TimedServer.alive_ofServer]

/-! ## Reading -/

lemma calls_exceptPass {α : Type} {P : CacheCall F → Prop} {m : CacheScript F (Option α)}
    (hm : m.Calls P) : (exceptPass m).Calls P := by
  refine hm.tryCatch fun e => ?_
  split_ifs
  · exact .pure none
  · exact .raise e

/-- A key that is looked up and made into a result. -/
lemma calls_getText {α : Type} (key : String) (f : String → Option α) :
    Script.Calls CacheCall.Reads (CacheScript.clientGet (F := F) key >>= fun v =>
      match valueText v with
      | some text => Script.lift text >>= fun s => pure (f s)
      | none => pure none) := by
  refine Script.Calls.bind (Script.Calls.ask trivial) fun v => ?_
  cases valueText v with
  | none => exact .pure none
  | some text => exact (Script.Calls.lift text).bind fun s => .pure (f s)

/-- `get` only reads. -/
lemma calls_get (q : GetArgs F) : (c.get floats q).Calls CacheCall.Reads := by
  have hexact : (c.exactMatch floats q.prompt q.exactFirst).Calls CacheCall.Reads := by
    unfold SemanticCache.exactMatch
    split_ifs
    · exact calls_exceptPass (calls_getText _ _)
    · exact .pure none
  have hexpand (m : MatchFields F) :
      (SemanticCache.expandParent m q.resolveParent).Calls CacheCall.Reads := by
    unfold SemanticCache.expandParent
    split_ifs
    · exact calls_exceptPass (calls_getText _ _)
    · exact .pure none
  refine hexact.bind fun result => ?_
  cases result with
  | some result => exact .pure _
  | none =>
    refine Script.Calls.bind (Script.Calls.bind (Script.Calls.ask trivial) fun vector =>
      Script.Calls.ask trivial) fun found => ?_
    cases found with
    | nil => exact .pure none
    | cons best rest =>
      refine (Script.Calls.lift _).bind fun m => (hexpand m).bind fun result => ?_
      cases result <;> exact .pure _

end Backend

end KacheDB
