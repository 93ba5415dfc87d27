import KacheDB.Foundation.LastWrite
import KacheDB.Integrations.KeyValue

/-!
# The LlamaIndex store

`KacheDBKVStore` keeps dictionaries as JSON under one text for each collection and key, the
namespace, the collection and the key with colons between them.  On a server that is a map it
should itself be a map from collections and keys to dictionaries.

`behavesAsMap_iff` says when it is: the text does not determine the collection and the key, and
what is written under a text by one pair is read by every other pair with this text.  Also each
`put_all` makes a pipeline, which keeps its connection, so that outside the context manager of the
client the store stops when the pool has none left.
-/

namespace KacheDB

open Foundation

/-! ## The store -/

/-- What the code uses of JSON: `json.dumps` and `json.loads` for dictionaries. -/
structure JsonCodec (δ : Type) where
  dumps : δ → Except Exc String
  loads : String → Except Exc δ

/-- Writing and reading are inverse on this dictionary. -/
def JsonCodec.Inverse {δ : Type} (json : JsonCodec δ) (val : δ) : Prop :=
  ∃ text, json.dumps val = .ok text ∧ json.loads text = .ok val

/-- A store with its client; the client is what answers its calls. -/
structure KVStore where
  kvNamespace : String := "llamaindex:kv"

namespace KVStore

/-- The text of a collection and a key. -/
def formatKey (store : KVStore) (key collection : String) : String :=
  store.kvNamespace ++ ":" ++ collection ++ ":" ++ key

variable {δ : Type} (json : JsonCodec δ) (texts : Texts) (store : KVStore)

/-- Put a key-value pair in the store. -/
def put (key : String) (val : δ) (collection : String) : ClientScript Unit := do
  let value ← Script.lift (json.dumps val)
  let _ ← KacheClient.set (.str (store.formatKey key collection)) (.str value) none none
  pure ()

/-- The commands that `put_all` queues with `pipe.set`. -/
def queued (collection : String) : List (String × δ) → Except Exc (List (List Arg))
  | [] => .ok []
  | (key, val) :: kvPairs => do
    let value ← json.dumps val
    let commands ← queued collection kvPairs
    return setCommand (.str (store.formatKey key collection)) (.str value) none none :: commands

/-- Put multiple key-value pairs in the store. -/
def putAll (kvPairs : List (String × δ)) (collection : String) : ClientScript Unit := do
  let pipe ← Script.ask ClientCall.pipeline
  let commands ← Script.lift (store.queued json collection kvPairs)
  let _ ← Script.ask (ClientCall.executePipeline pipe commands)
  pure ()

/-- Get a value from the store. -/
def get (key collection : String) : ClientScript (Option δ) := do
  match ← KacheClient.get (.str (store.formatKey key collection)) with
  | .none => pure none
  | val =>
    let value ← Script.lift (val.decodedText texts)
    match json.loads value with
    | .ok res => pure (some res)
    | .error e => if e.isException then pure none else .raise e

/-- Delete a key from the store. -/
def delete (key collection : String) : ClientScript Bool :=
  (KacheClient.delete [.str (store.formatKey key collection)]).map fun n => n == 1

end KVStore

/-- The index store: a store whose collection is `index`. -/
structure IndexStore where
  kvstore : KVStore := ⟨"llamaindex:index"⟩

namespace IndexStore

variable {δ : Type} (json : JsonCodec δ) (texts : Texts) (store : IndexStore)

/-- Store index structure. -/
def put (indexId : String) (indexStruct : δ) : ClientScript Unit :=
  store.kvstore.put json indexId indexStruct "index"

/-- Retrieve index structure. -/
def get (indexId : String) : ClientScript (Option δ) :=
  store.kvstore.get json texts indexId "index"

/-- Delete index structure. -/
def delete (indexId : String) : ClientScript Bool :=
  store.kvstore.delete indexId "index"

end IndexStore

/-! ## Operations as writes -/

/-- A key of the store that is meant: a collection and a key of it. -/
structure KVKey where
  collection : String
  key : String
  deriving DecidableEq

/-- An operation that changes the store. -/
inductive KVOp (δ : Type) : Type where
  | put (key : String) (val : δ) (collection : String)
  | putAll (kvPairs : List (String × δ)) (collection : String)
  | delete (key collection : String)

namespace KVOp

variable {δ : Type}

/-- The collection of an operation. -/
def collection : KVOp δ → String
  | .put _ _ collection => collection
  | .putAll _ collection => collection
  | .delete _ collection => collection

/-- The operation makes a pipeline. -/
def makesPipeline : KVOp δ → Bool
  | .putAll _ _ => true
  | _ => false

/-- What an operation is meant to write. -/
def writes : KVOp δ → List (Write KVKey δ)
  | .put key val collection => [⟨⟨collection, key⟩, some val⟩]
  | .putAll kvPairs collection => kvPairs.map fun pair => ⟨⟨collection, pair.1⟩, some pair.2⟩
  | .delete key collection => [⟨⟨collection, key⟩, none⟩]

/-- The call of an operation. -/
def script (json : JsonCodec δ) (store : KVStore) : KVOp δ → ClientScript Unit
  | .put key val collection => store.put json key val collection
  | .putAll kvPairs collection => store.putAll json kvPairs collection
  | .delete key collection => (store.delete key collection).map fun _ => ()

end KVOp

/-- What these operations are meant to write. -/
def kvWrites {δ : Type} (ops : List (KVOp δ)) : List (Write KVKey δ) :=
  ops.flatMap KVOp.writes

namespace KVStore

variable {δ : Type} (json : JsonCodec δ) (texts : Texts) (store : KVStore) (d : Bool)
  (mode : ClientMode)

/-- The server after these operations. -/
def runOps (ops : List (KVOp δ)) (s : Store) : Store :=
  ops.foldl (fun s op => ((op.script json store).run (Store.handle d) s).2) s

/-- The server and the client after these operations. -/
def runClient (ops : List (KVOp δ)) (s : Metered Store) : Metered Store :=
  ops.foldl (fun s op => ((op.script json store).run (Metered.handle mode (Store.handle d)) s).2) s

/-- What `get` returns after these operations of a new client on a server that was empty. -/
def getAfter (ops : List (KVOp δ)) (k : KVKey) : Except Exc (Option δ) :=
  ((store.get json texts k.key k.collection).run (Metered.handle mode (Store.handle d))
    (store.runClient json d mode ops (.new fun _ => none))).1

/-- The text of a key. -/
def textOf (k : KVKey) : String :=
  store.formatKey k.key k.collection

/-- The bytes that are stored for a dictionary. -/
def stored (val : δ) : Bytes :=
  match json.dumps val with
  | .ok value => encodeUtf8 value
  | .error _ => []

variable {json texts store d mode}

variable (store d) in
/-- The pipeline of `put_all` writes the pairs. -/
lemma text_executeAll_queued {kvPairs : List (String × δ)} (collection : String)
    (hjson : ∀ pair ∈ kvPairs, json.Inverse pair.2) :
    ∃ commands, store.queued json collection kvPairs = .ok commands ∧ ∀ s : Store,
      Store.text (s.executeAll d commands).2 =
        storeAfter store.textOf s.text
          ((KVOp.putAll kvPairs collection).writes.map (Write.map (stored json))) := by
  induction kvPairs with
  | nil => exact ⟨[], rfl, fun _ => rfl⟩
  | cons pair kvPairs ih =>
    obtain ⟨commands, hqueued, htext⟩ :=
      ih fun pair hpair => hjson pair (List.mem_cons_of_mem _ hpair)
    obtain ⟨value, hdumps, -⟩ := hjson pair List.mem_cons_self
    have hstored : stored json pair.2 = encodeUtf8 value := by rw [stored, hdumps]
    refine ⟨_, by rw [queued, hdumps, hqueued]; rfl, fun s => ?_⟩
    rw [Store.executeAll, Store.execute_set]
    refine (htext _).trans ?_
    -- the first pair is written before the others
    have hfirst : Store.text (Function.update s (encodeUtf8 (store.formatKey pair.1 collection))
        (some (encodeUtf8 value))) = storeAfter store.textOf s.text
          [Write.map (stored json) ⟨⟨collection, pair.1⟩, some pair.2⟩] := by
      funext key'
      rw [Store.text_update, Write.map, Option.map_some, hstored]
      rfl
    rw [hfirst, ← storeAfter_append]
    rfl

/-- An operation writes what it is meant to write, under the texts of the keys. -/
lemma text_script {op : KVOp δ} (s : Store)
    (hjson : ∀ w ∈ op.writes, ∀ val ∈ w.value, json.Inverse val) :
    Store.text ((op.script json store).run (Store.handle d) s).2 =
      storeAfter store.textOf s.text (op.writes.map (Write.map (stored json))) := by
  cases op with
  | put key val collection =>
    obtain ⟨value, hdumps, -⟩ := hjson _ List.mem_cons_self val rfl
    have hstored : stored json val = encodeUtf8 value := by rw [stored, hdumps]
    simp only [KVOp.script, put, hdumps]
    rw [Script.bind_eq, Script.run_bind, Script.run_lift]
    simp only [Script.bind_eq, Script.run_bind, Store.run_set, Script.pure_eq, Script.run_pure]
    funext key'
    rw [Store.text_update]
    simp only [KVOp.writes, List.map_cons, List.map_nil, storeAfter, List.foldl_cons,
      List.foldl_nil, Write.map, Option.map_some, hstored]
    rfl
  | putAll kvPairs collection =>
    have hpairs : ∀ pair ∈ kvPairs, json.Inverse pair.2 := fun pair hpair =>
      hjson ⟨⟨collection, pair.1⟩, some pair.2⟩ (List.mem_map_of_mem hpair) pair.2 rfl
    obtain ⟨commands, hqueued, htext⟩ := text_executeAll_queued store d collection hpairs
    rw [← htext s]
    simp only [KVOp.script, putAll, hqueued, Script.bind_eq, Script.run_bind, Script.run_ask,
      Store.handle, Script.run_lift]
    rcases s.executeAll d commands with ⟨_ | _, s'⟩ <;> rfl
  | delete key collection =>
    rw [KVOp.script, delete, Script.run_map, Script.run_map, Store.run_delete]
    funext key'
    rw [Store.text_update]
    rfl

/-- JSON is inverse on the dictionaries of these operations. -/
def StoresInverse (json : JsonCodec δ) (ops : List (KVOp δ)) : Prop :=
  ∀ w ∈ kvWrites ops, ∀ val ∈ w.value, json.Inverse val

lemma StoresInverse.of_prefix {pre ops : List (KVOp δ)} (h : StoresInverse json ops)
    (hpre : pre <+: ops) : StoresInverse json pre := by
  intro w hw
  obtain ⟨op, hop, hw'⟩ := List.mem_flatMap.mp hw
  exact h w (List.mem_flatMap.mpr ⟨op, hpre.subset hop, hw'⟩)

/-- The operations write what they are meant to write, under the texts of the keys. -/
theorem text_runOps {ops : List (KVOp δ)} (hjson : StoresInverse json ops) :
    Store.text (store.runOps json d ops fun _ => none) =
      storeAfter store.textOf (fun _ => none) ((kvWrites ops).map (Write.map (stored json))) := by
  induction ops using List.reverseRecOn with
  | nil => rfl
  | append_singleton ops op ih =>
    have hops := ih (hjson.of_prefix (List.prefix_append ops [op]))
    have hop : ∀ w ∈ op.writes, ∀ val ∈ w.value, json.Inverse val := fun w hw =>
      hjson w (List.mem_flatMap.mpr ⟨op, by simp, hw⟩)
    rw [runOps, List.foldl_concat, ← runOps, text_script _ hop, hops, kvWrites, kvWrites,
      List.flatMap_append, List.map_append, storeAfter_append, List.flatMap_singleton]

/-- `get` reads the value of the last write under the text of its key. -/
lemma run_get_runOps {ops : List (KVOp δ)} (hjson : StoresInverse json ops) (k : KVKey) :
    ((store.get json texts k.key k.collection).run (Store.handle d)
      (store.runOps json d ops fun _ => none)).1 =
        .ok (valueUnder store.textOf (kvWrites ops) k) := by
  have hvalue : (store.runOps json d ops fun _ => none).text (store.textOf k) =
      (valueUnder store.textOf (kvWrites ops) k).map (stored json) := by
    rw [text_runOps hjson, storeAfter_text, valueUnder_map]
  have hreply : (KacheClient.get (.str (store.formatKey k.key k.collection))).run (Store.handle d)
      (store.runOps json d ops fun _ => none) =
        (decodeResponse d (Store.reply
            ((valueUnder store.textOf (kvWrites ops) k).map (stored json))),
          store.runOps json d ops fun _ => none) := by
    rw [Store.run_get, ← hvalue]
    rfl
  unfold get
  rw [Script.bind_eq, Script.run_bind, hreply]
  cases hlast : valueUnder store.textOf (kvWrites ops) k with
  | none => cases d <;> rfl
  | some val =>
    obtain ⟨w, hw, hval⟩ := mem_of_valueUnder hlast
    obtain ⟨value, hdumps, hloads⟩ := hjson w hw val hval
    have hstored : stored json val = encodeUtf8 value := by rw [stored, hdumps]
    have hdec := decodeUtf8_encodeUtf8 value
    cases d <;>
      simp [Store.reply, hstored, decodeResponse, hdec, RespValue.decodedText, decodeText,
        RespValue.strOr, Script.bind_eq, Script.run_bind, hloads, Script.pure_eq]

/-! ## The connections -/

/-- `put` executes commands only. -/
lemma calls_put (json : JsonCodec δ) (store : KVStore) (key : String) (val : δ)
    (collection : String) : (store.put json key val collection).Calls ClientCall.IsExecute :=
  (Script.Calls.lift _).bind fun _ => ((KacheClient.calls_command _).map _).bind fun _ => .pure ()

/-- `delete` executes commands only. -/
lemma calls_delete (store : KVStore) (key collection : String) :
    (store.delete key collection).Calls ClientCall.IsExecute :=
  ((KacheClient.calls_command _).map _).map _

/-- `get` executes commands only. -/
lemma calls_get (json : JsonCodec δ) (texts : Texts) (store : KVStore) (key collection : String) :
    (store.get json texts key collection).Calls ClientCall.IsExecute := by
  refine (KacheClient.calls_command _).bind fun v => ?_
  cases v with
  | none => exact .pure none
  | _ =>
    refine (Script.Calls.lift _).bind fun value => ?_
    cases json.loads value with
    | ok res => exact .pure _
    | error e =>
      dsimp only
      split_ifs
      · exact .pure none
      · exact .raise _

/-- An operation without a pipeline executes commands only. -/
lemma calls_script {op : KVOp δ} (h : op.makesPipeline = false) :
    (op.script json store).Calls ClientCall.IsExecute := by
  cases op with
  | put key val collection => exact store.calls_put json key val collection
  | putAll kvPairs collection => cases h
  | delete key collection => exact (store.calls_delete key collection).map _

/-- `put_all` makes a pipeline, and no other. -/
lemma exists_script_putAll (json : JsonCodec δ) (store : KVStore) (kvPairs : List (String × δ))
    (collection : String) :
    ∃ f : ℕ → ClientScript Unit, (KVOp.putAll kvPairs collection).script json store =
        (Script.ask ClientCall.pipeline).bind f ∧
      ∀ pipe, (f pipe).Calls Metered.KeepsConnections :=
  ⟨_, rfl, fun _ => (Script.Calls.lift _).bind fun _ => (Script.Calls.ask trivial).bind fun _ =>
    .pure ()⟩

lemma runOps_concat (ops : List (KVOp δ)) (op : KVOp δ) (s : Store) :
    store.runOps json d (ops ++ [op]) s =
      ((op.script json store).run (Store.handle d) (store.runOps json d ops s)).2 :=
  List.foldl_concat ..

lemma runClient_concat (ops : List (KVOp δ)) (op : KVOp δ) (s : Metered Store) :
    store.runClient json d mode (ops ++ [op]) s =
      ((op.script json store).run (Metered.handle mode (Store.handle d))
        (store.runClient json d mode ops s)).2 :=
  List.foldl_concat ..

/-- The pipelines of one more operation. -/
lemma countP_concat (ops : List (KVOp δ)) (op : KVOp δ) :
    (ops ++ [op]).countP KVOp.makesPipeline =
      ops.countP KVOp.makesPipeline + if op.makesPipeline then 1 else 0 := by
  rw [List.countP_append, List.countP_singleton]

/-- As long as there is a connection, the client writes what is written on the server. -/
lemma runClient_eq {ops : List (KVOp δ)}
    (hroom : mode.exhausted (ops.countP KVOp.makesPipeline) = none) (s : Store) :
    store.runClient json d mode ops (.new s) =
      ⟨store.runOps json d ops s, ops.countP KVOp.makesPipeline⟩ := by
  induction ops using List.reverseRecOn with
  | nil => rfl
  | append_singleton ops op ih =>
    rw [countP_concat] at hroom
    have hroom' : mode.exhausted (ops.countP KVOp.makesPipeline) = none :=
      Metered.exhausted_mono hroom (Nat.le_add_right _ _)
    rw [runClient_concat, ih hroom', runOps_concat, countP_concat]
    cases hop : op.makesPipeline with
    | false =>
      rw [Metered.run_metered ((calls_script hop).mono Metered.keepsConnections) hroom']
      rfl
    | true =>
      cases op with
      | putAll kvPairs collection =>
        obtain ⟨f, hscript, hf⟩ := exists_script_putAll json store kvPairs collection
        rw [hop, if_pos rfl] at hroom
        rw [hscript, Metered.run_pipeline_bind hf rfl hroom' hroom]
        rfl
      | put key val collection => cases hop
      | delete key collection => cases hop

/-- Every pipeline keeps a connection. -/
lemma le_pipelines_runClient (json : JsonCodec δ) (store : KVStore) (d : Bool)
    (ops : List (KVOp δ)) (maxConnections : ℕ) (s : Store) :
    min (ops.countP KVOp.makesPipeline) maxConnections ≤
      (store.runClient json d (.perCall maxConnections) ops (.new s)).pipelines := by
  induction ops using List.reverseRecOn with
  | nil => exact (min_le_left _ _).trans (Nat.zero_le _)
  | append_singleton ops op ih =>
    rw [runClient_concat, countP_concat]
    cases op with
    | putAll kvPairs collection =>
      obtain ⟨f, hscript, -⟩ := exists_script_putAll json store kvPairs collection
      rw [hscript]
      refine le_trans ?_ (Metered.le_pipelines_run_pipeline _ _ f _)
      simp only [KVOp.makesPipeline, if_true]
      omega
    | put key val collection => exact ih.trans (Metered.le_pipelines_run _ _ _ _)
    | delete key collection => exact ih.trans (Metered.le_pipelines_run _ _ _ _)

/-- Without a connection `get` raises. -/
lemma getAfter_of_exhausted {ops : List (KVOp δ)} {maxConnections : ℕ}
    (h : maxConnections ≤ ops.countP KVOp.makesPipeline) (k : KVKey) :
    store.getAfter json texts d (.perCall maxConnections) ops k =
      .error (.poolExhaustedError
        s!"Connection pool exhausted (max_connections={maxConnections})") := by
  have hle := le_pipelines_runClient json store d ops maxConnections fun _ => none
  rw [min_eq_right h] at hle
  have hcommand (args : List Arg) (s : Metered Store) (hs : maxConnections ≤ s.pipelines) :
      (KacheClient.command args).run (Metered.handle (.perCall maxConnections) (Store.handle d)) s =
        (.error (.poolExhaustedError
          s!"Connection pool exhausted (max_connections={maxConnections})"), s) := by
    rw [KacheClient.command, Script.run_ask]
    simp only [Metered.handle, ClientMode.exhausted, if_neg (not_lt.mpr hs)]
  rw [getAfter, get, Script.bind_eq, Script.run_bind, KacheClient.get, hcommand _ _ hle]

/-- `get` returns the value of the last write under the text of its key, as long as there is a
connection. -/
theorem getAfter_eq {ops : List (KVOp δ)} (hjson : StoresInverse json ops)
    (hroom : mode.exhausted (ops.countP KVOp.makesPipeline) = none) (k : KVKey) :
    store.getAfter json texts d mode ops k = .ok (valueUnder store.textOf (kvWrites ops) k) := by
  rw [getAfter, runClient_eq hroom,
    Metered.run_metered ((calls_get json texts store _ _).mono Metered.keepsConnections) hroom]
  exact run_get_runOps hjson k

/-! ## The map -/

/-- At every point of this history, what the store returns for a key is what a map from
collections and keys to dictionaries holds, and no operation on another collection changes it. -/
def BehavesAsMap (json : JsonCodec δ) (texts : Texts) (store : KVStore) (d : Bool)
    (mode : ClientMode) (ops : List (KVOp δ)) (k : KVKey) : Prop :=
  (∀ pre, pre <+: ops →
    store.getAfter json texts d mode pre k = .ok (valueAt (kvWrites pre) k)) ∧
  ∀ pre op, pre ++ [op] <+: ops → op.collection ≠ k.collection →
    store.getAfter json texts d mode (pre ++ [op]) k = store.getAfter json texts d mode pre k

/-- An operation writes keys of its own collection. -/
lemma collection_of_mem_writes {op : KVOp δ} {w : Write KVKey δ} (hw : w ∈ op.writes) :
    w.key.collection = op.collection := by
  cases op with
  | put key val collection => rw [List.mem_singleton.mp hw]; rfl
  | putAll kvPairs collection =>
    obtain ⟨pair, -, rfl⟩ := List.mem_map.mp hw
    rfl
  | delete key collection => rw [List.mem_singleton.mp hw]; rfl

/-- **When the store is a map.**  For a key, the store of a new client behaves as a map along a
history of operations if and only if the client has a connection of its own or more connections
than the history has calls of `put_all`, and, at every point of it, the last write under the text
of this key was made for exactly this key, or it leaves what the last one for this key leaves. -/
theorem behavesAsMap_iff (json : JsonCodec δ) (texts : Texts) (store : KVStore) (d : Bool)
    (mode : ClientMode) {ops : List (KVOp δ)} (hjson : StoresInverse json ops) (k : KVKey) :
    BehavesAsMap json texts store d mode ops k ↔
      (∀ maxConnections, mode = .perCall maxConnections →
        ops.countP KVOp.makesPipeline < maxConnections) ∧
      ∀ pre, pre <+: ops → OwnText store.textOf (kvWrites pre) k := by
  rw [← Metered.exhausted_eq_none_iff]
  have hget {pre : List (KVOp δ)} (hpre : pre <+: ops)
      (hroom : mode.exhausted (ops.countP KVOp.makesPipeline) = none) :
      store.getAfter json texts d mode pre k = .ok (valueAt (kvWrites pre) k) ↔
        OwnText store.textOf (kvWrites pre) k := by
    rw [getAfter_eq (hjson.of_prefix hpre) (Metered.exhausted_mono hroom hpre.sublist.countP_le),
      Except.ok.injEq, valueUnder_eq_valueAt_iff]
  constructor
  · rintro ⟨h, -⟩
    have hroom : mode.exhausted (ops.countP KVOp.makesPipeline) = none := by
      rw [Metered.exhausted_eq_none_iff]
      rintro maxConnections rfl
      by_contra hle
      have hlast := h ops (List.prefix_refl _)
      rw [getAfter_of_exhausted (not_lt.mp hle)] at hlast
      cases hlast
    exact ⟨hroom, fun pre hpre => (hget hpre hroom).mp (h pre hpre)⟩
  · rintro ⟨hroom, h⟩
    refine ⟨fun pre hpre => (hget hpre hroom).mpr (h pre hpre), fun pre op hpre hne => ?_⟩
    have hpre' : pre <+: ops := (List.prefix_append pre [op]).trans hpre
    have hother : ∀ w ∈ op.writes, w.key ≠ k := by
      rintro w hw rfl
      exact hne (collection_of_mem_writes hw).symm
    rw [(hget hpre hroom).mpr (h _ hpre), (hget hpre' hroom).mpr (h _ hpre'), kvWrites, kvWrites,
      List.flatMap_append, List.flatMap_singleton, valueAt_append_of_ne _ hother]

/-- JSON for the empty dictionary only. -/
def emptyDict : JsonCodec Unit where
  dumps _ := .ok "\x7b\x7d"
  loads text :=
    if text = "\x7b\x7d" then .ok ()
    else .error (.valueError "Expecting value: line 1 column 1 (char 0)")

lemma inverse_emptyDict (ops : List (KVOp Unit)) : StoresInverse emptyDict ops :=
  fun _ _ _ _ => ⟨_, rfl, rfl⟩

/-- A few operations without colons, by a client with two connections. -/
def fewOps : List (KVOp Unit) :=
  [.put "a" () "data", .putAll [("b", ()), ("a", ())] "data", .delete "a" "data",
    .put "a" () "index"]

/-- When the store behaves as a map for these operations. -/
theorem behavesAsMap_iff_few :
    BehavesAsMap emptyDict .plain ⟨"kv"⟩ false (.perCall 2) fewOps ⟨"data", "a"⟩ ↔
      (∀ maxConnections, ClientMode.perCall 2 = .perCall maxConnections →
        fewOps.countP KVOp.makesPipeline < maxConnections) ∧
      ∀ pre, pre <+: fewOps → OwnText (textOf ⟨"kv"⟩) (kvWrites pre) ⟨"data", "a"⟩ :=
  behavesAsMap_iff emptyDict .plain ⟨"kv"⟩ false (.perCall 2) (inverse_emptyDict _) ⟨"data", "a"⟩

/-- What is put under `c` in the collection `a:b` is found under `b:c` in the collection `a`. -/
theorem not_behavesAsMap_colon :
    ¬ BehavesAsMap emptyDict .plain ⟨"kv"⟩ false .dedicated [.put "c" () "a:b"] ⟨"a", "b:c"⟩ := by
  rintro ⟨h, -⟩
  have hget := h _ (List.prefix_refl _)
  rw [getAfter_eq (inverse_emptyDict _) rfl] at hget
  have hunder : valueUnder (textOf ⟨"kv"⟩) (kvWrites [KVOp.put "c" () "a:b"]) ⟨"a", "b:c"⟩ =
      some () := by decide
  have hat : valueAt (kvWrites [KVOp.put "c" () "a:b"]) ⟨"a", "b:c"⟩ = none := by decide
  rw [hunder, hat] at hget
  cases hget

end KVStore

end KacheDB
