import KacheDB.Semantic.Server
import KacheDB.Transport
import KacheDB.VectorCommands

/-!
# The semantic cache over the wire

`Backend.handle` answers the calls of a semantic cache in one step.  Below it there are the methods
of the client, the pool, a connection, the bytes of commands and replies, and a server that knows
nothing but bytes.  This module puts the layers together.

* `CacheStack.call` is what a call of the cache comes to on a client: a script of commands.
* `Service.Serves` says what a service of bytes has to answer to these commands.
  `CacheStack.call_simulates` says that the calls then have the outcome that the backend gives
  them, and that the service goes on storing what the backend stores.
* `WireServer.service` is such a service: it takes the options of `VADD` and `VSEARCH` apart and
  answers with rows of bulk strings.  Its search is a parameter.  `WireServer.serves` says that it
  serves a cache.

`CacheStack.getAfter_eq_lookup` follows: after any history of `set` and `delete` calls through all
these layers, `get` finds what it finds on the backend.
-/

namespace KacheDB

open Foundation Backend

/-! ## A server of bytes -/

/-- An item of an index, in bytes. -/
structure WireItem where
  vector : Bytes
  payload : Bytes
  tags : ℕ
  parentKey : Option Bytes

/-- The state of a server of bytes. -/
structure WireServer where
  kv : Bytes → Option Bytes
  index : Bytes → Bytes → Option WireItem

/-- `VSEARCH` among the items of an index: the ids that are found, with the texts of their scores.
The filter is 0 where none is sent. -/
abbrev WireSearch : Type :=
  (Bytes → Option WireItem) → (query topK threshold : Bytes) → (filter : ℕ) → List (Bytes × Bytes)

/-- The value of an option among options with their values. -/
def optionValue (name : String) : List Bytes → Option Bytes
  | key :: value :: rest =>
    if key = encodeUtf8 name then some value else optionValue name rest
  | _ => none

/-- The number of decimal digits. -/
def decimalValue (b : Bytes) : ℕ :=
  ((decodeUtf8 b).map fun s => Nat.ofDigitChars 10 s.toList 0).getD 0

/-- A number given as an option, 0 if it is not given. -/
def optionNumber (name : String) (options : List Bytes) : ℕ :=
  ((optionValue name options).map decimalValue).getD 0

/-- A value that may be missing. -/
def bulkOrNull : Option Bytes → Reply
  | some b => .bulk b
  | none => .nullBulk

/-- The item that `VADD` stores. -/
def WireItem.ofOptions (vector : Bytes) (options : List Bytes) : WireItem where
  vector := vector
  payload := (optionValue "PAYLOAD" options).getD []
  tags := optionNumber "TAGS" options
  parentKey := optionValue "PARENT" options

/-- A row of the answer to `VSEARCH`. -/
def WireItem.row (id score : Bytes) (item : WireItem) : Reply :=
  .array [.bulk id, .bulk score, .bulk item.payload, bulkOrNull item.parentKey]

namespace WireServer

/-- The index with another item under an id. -/
def setItem (w : WireServer) (index id : Bytes) (item : Option WireItem) : WireServer :=
  { w with index := Function.update w.index index (Function.update (w.index index) id item) }

/-- The answer to a command with a key. -/
def answerKey (w : WireServer) (name key : Bytes) (rest : List Bytes) : Reply × WireServer :=
  if name = encodeUtf8 "GET" then (bulkOrNull (w.kv key), w)
  else if name = encodeUtf8 "SET" then
    match rest with
    | value :: _ => (okReply, { w with kv := Function.update w.kv key (some value) })
    | [] => (unknownCommand, w)
  else (unknownCommand, w)

/-- The answer to a command with an index. -/
def answerIndex (search : WireSearch) (w : WireServer) (name index : Bytes) (rest : List Bytes) :
    Reply × WireServer :=
  if name = encodeUtf8 "VADD" then
    match rest with
    | id :: _ :: vector :: options =>
      (.integer 1, w.setItem index id (some (.ofOptions vector options)))
    | _ => (unknownCommand, w)
  else if name = encodeUtf8 "VDEL" then
    match rest with
    | id :: _ => (.integer (if (w.index index id).isSome then 1 else 0), w.setItem index id none)
    | [] => (unknownCommand, w)
  else if name = encodeUtf8 "VSEARCH" then
    match rest with
    | query :: options =>
      let found := search (w.index index) query ((optionValue "TOPK" options).getD [])
        ((optionValue "THRESHOLD" options).getD []) (optionNumber "FILTER" options)
      (.array (found.filterMap fun f => (w.index index f.1).map (WireItem.row f.1 f.2)), w)
    | [] => (unknownCommand, w)
  else w.answerKey name index rest

/-- The server as a service. -/
def service (search : WireSearch) : Service WireServer where
  answer args w :=
    match args with
    | [] => (unknownCommand, w)
    | name :: rest =>
      if name = encodeUtf8 "PING" then (ConnectionPool.pong, w)
      else if name = encodeUtf8 "AUTH" then (okReply, w)
      else
        match rest with
        | [] => (unknownCommand, w)
        | key :: rest => w.answerIndex search name key rest

lemma up_service (search : WireSearch) (password : Option String) :
    (service search).Up password where
  ping _ := rfl
  auth _ _ _ := rfl

end WireServer

/-! ## What the options of a command are read as -/

lemma rawArgs_append (args args' : List Arg) :
    rawArgs (args ++ args') = rawArgs args ++ rawArgs args' :=
  List.map_append

/-- An option that was given is found, and the others are found behind it. -/
lemma optionValue_optionArgs (name key : String) (value : Option Arg) (rest : List Bytes) :
    optionValue name (rawArgs (optionArgs key value) ++ rest) =
      if key = name then (value.map Arg.raw).or (optionValue name rest)
      else optionValue name rest := by
  cases value with
  | none => simp [optionArgs, rawArgs]
  | some value =>
    by_cases hkey : key = name
    · simp [optionArgs, rawArgs, optionValue, Arg.raw, hkey]
    · have hne : encodeUtf8 key ≠ encodeUtf8 name :=
        fun h => hkey (Store.encodeUtf8_injective h)
      simp [optionArgs, rawArgs, optionValue, Arg.raw, hkey, hne]

/-- An option behind which there is no other. -/
lemma optionValue_last (name key : String) (value : Option Arg) :
    optionValue name (rawArgs (optionArgs key value)) =
      if key = name then value.map Arg.raw else none := by
  have hlast := optionValue_optionArgs name key value []
  have hnil : optionValue name [] = none := rfl
  rw [List.append_nil, hnil, Option.or_none] at hlast
  exact hlast

/-- A mask is read as it was sent. -/
lemma decimalValue_maskArg (mask : ℕ) :
    ((maskArg mask).map (decimalValue ∘ Arg.raw)).getD 0 = mask := by
  unfold maskArg
  split_ifs with hmask
  · have hread : decimalValue (encodeUtf8 (toString mask)) = mask := by
      have hlist : (toString mask).toList = Nat.toDigits 10 mask := Nat.toList_repr
      rw [decimalValue, decodeUtf8_encodeUtf8, Option.map_some, hlist, Option.getD_some,
        Nat.ofDigitChars_ten_toDigits]
    exact hread
  · exact (Nat.eq_zero_of_not_pos hmask).symm

/-! ## What the server answers to the commands of the client -/

section Answers

variable (search : WireSearch) (w : WireServer)

lemma encodeUtf8_inj {x y : String} : encodeUtf8 x = encodeUtf8 y ↔ x = y :=
  Store.encodeUtf8_injective.eq_iff

lemma answer_get (key : String) :
    (WireServer.service search).answer (rawArgs [.str "GET", .str key]) w =
      (bulkOrNull (w.kv (encodeUtf8 key)), w) := by
  simp [WireServer.service, WireServer.answerIndex, WireServer.answerKey, rawArgs, Arg.raw,
    encodeUtf8_inj]

lemma answer_set (key value : String) (ex : Option ℤ) :
    (WireServer.service search).answer
        (rawArgs (setCommand (.str key) (.str value) ex none)) w =
      (okReply,
        { w with kv := Function.update w.kv (encodeUtf8 key) (some (encodeUtf8 value)) }) := by
  have hargs : ∃ options : List Arg, setCommand (.str key) (.str value) ex none =
      .str "SET" :: .str key :: .str value :: options := by
    cases ex with
    | none => exact ⟨[], rfl⟩
    | some ex => exact ⟨_, rfl⟩
  obtain ⟨options, hoptions⟩ := hargs
  rw [hoptions]
  simp [WireServer.service, WireServer.answerIndex, WireServer.answerKey, rawArgs, Arg.raw,
    encodeUtf8_inj]

lemma answer_vdel (index itemId : String) :
    (WireServer.service search).answer (rawArgs [.str "VDEL", .str index, .str itemId]) w =
      (.integer (if (w.index (encodeUtf8 index) (encodeUtf8 itemId)).isSome then 1 else 0),
        w.setItem (encodeUtf8 index) (encodeUtf8 itemId) none) := by
  simp [WireServer.service, WireServer.answerIndex, rawArgs, Arg.raw, encodeUtf8_inj]

/-- The options of `VADD` are read as they were given. -/
lemma answer_vadd (enc : TagEncoding) (index itemId : String) (dim : ℕ) (vector : Bytes)
    (o : VAddOptions) :
    (WireServer.service search).answer
        (rawArgs (vaddCommand enc (.str index) (.str itemId) dim vector o)) w =
      (.integer 1, w.setItem (encodeUtf8 index) (encodeUtf8 itemId)
        (some ⟨vector, (o.payload.map Arg.raw).getD [], tagsToBitmask enc o.tags o.tagMask,
          o.parentKey.map Arg.raw⟩)) := by
  have hitem : WireItem.ofOptions vector (rawArgs
      (optionArgs "PAYLOAD" o.payload ++ optionArgs "EX" (intArg o.ex) ++
        optionArgs "TAGS" (maskArg (tagsToBitmask enc o.tags o.tagMask)) ++
        optionArgs "PARENT" o.parentKey)) =
      ⟨vector, (o.payload.map Arg.raw).getD [], tagsToBitmask enc o.tags o.tagMask,
        o.parentKey.map Arg.raw⟩ := by
    simp [WireItem.ofOptions, optionNumber, rawArgs_append, optionValue_optionArgs,
      optionValue_last, decimalValue_maskArg]
  have hcommand : rawArgs (vaddCommand enc (.str index) (.str itemId) dim vector o) =
      encodeUtf8 "VADD" :: encodeUtf8 index :: encodeUtf8 itemId ::
        encodeUtf8 (toString dim) :: vector :: rawArgs
        (optionArgs "PAYLOAD" o.payload ++ optionArgs "EX" (intArg o.ex) ++
          optionArgs "TAGS" (maskArg (tagsToBitmask enc o.tags o.tagMask)) ++
          optionArgs "PARENT" o.parentKey) := by
    simp [vaddCommand, rawArgs, Arg.raw]
  rw [hcommand, ← hitem]
  simp [WireServer.service, WireServer.answerIndex, encodeUtf8_inj]

/-- The options of `VSEARCH` are read as they were given. -/
lemma answer_vsearch {F : Type} (codec : VectorCodec F) (enc : TagEncoding) (index : String)
    (query : Bytes) (o : VSearchOptions F) :
    (WireServer.service search).answer
        (rawArgs (vsearchCommand codec enc (.str index) query o)) w =
      (.array ((search (w.index (encodeUtf8 index)) query (encodeUtf8 (toString o.topK))
          (encodeUtf8 (codec.repr o.threshold))
          (tagsToBitmask enc o.filterTags o.filterMask)).filterMap fun f =>
        (w.index (encodeUtf8 index) f.1).map (WireItem.row f.1 f.2)), w) := by
  have hcommand : rawArgs (vsearchCommand codec enc (.str index) query o) =
      encodeUtf8 "VSEARCH" :: encodeUtf8 index :: query :: encodeUtf8 "TOPK" ::
        encodeUtf8 (toString o.topK) :: encodeUtf8 "THRESHOLD" ::
        encodeUtf8 (codec.repr o.threshold) ::
        rawArgs (optionArgs "FILTER" (maskArg (tagsToBitmask enc o.filterTags o.filterMask))) := by
    simp [vsearchCommand, rawArgs, Arg.raw]
  rw [hcommand]
  simp [WireServer.service, WireServer.answerIndex, encodeUtf8_inj, optionValue, optionNumber,
    optionValue_last, decimalValue_maskArg]

end Answers

/-! ## What the client makes of the answers -/

section Decoding

variable (limit : ℕ) (d : Bool)

lemma decoded_okReply : okReply.decoded (limit + 1) d = .ok (.str "OK") := by
  cases d <;> rfl

lemma decoded_integer (n : ℤ) : (Reply.integer n).decoded (limit + 1) d = .ok (.int n) := by
  cases d <;> rfl

lemma decoded_bulkOrNull (value : Option Bytes) :
    (bulkOrNull value).decoded (limit + 1) d =
      decodeResponse d (value.elim .none .bytes) := by
  cases value <;> rfl

/-- A row as the client reads it. -/
def WireItem.rowValue (id score : Bytes) (item : WireItem) : RespValue :=
  .list [.bytes id, .bytes score, .bytes item.payload, item.parentKey.elim .none .bytes]

lemma outcome_row (id score : Bytes) (item : WireItem) :
    (item.row id score).outcome (limit + 2) = .ok (item.rowValue id score) := by
  have hparent : (bulkOrNull item.parentKey).outcome (limit + 1) =
      .ok (item.parentKey.elim .none .bytes) := by
    cases item.parentKey <;> rfl
  simp [WireItem.row, WireItem.rowValue, Reply.outcome, Reply.outcomeList, hparent, Except.bind,
    Except.map]

/-- The rows of an answer. -/
lemma decoded_rows (rows : List (Bytes × Bytes × WireItem)) :
    (Reply.array (rows.map fun r => r.2.2.row r.1 r.2.1)).decoded (limit + 3) d =
      .ok (.list (rows.map fun r => r.2.2.rowValue r.1 r.2.1)) := by
  have hlist : Reply.outcomeList (limit + 2) (rows.map fun r => r.2.2.row r.1 r.2.1) =
      .ok (rows.map fun r => r.2.2.rowValue r.1 r.2.1) := by
    induction rows with
    | nil => rfl
    | cons r rows ih =>
      rw [List.map_cons, Reply.outcomeList_cons_of_ok (outcome_row limit r.1 r.2.1 r.2.2), ih]
      rfl
  rw [Reply.decoded, Reply.outcome, hlist]
  cases d <;> rfl

end Decoding

/-! ## The layers of a cache -/

/-- What a cache is built from besides its client and its server. -/
structure CacheStack (F : Type) where
  /-- `embedder.encode` -/
  encode : String → Except Exc (List F)
  codec : VectorCodec F
  tagEncoding : TagEncoding
  texts : Texts

namespace CacheStack

variable {F : Type} (stack : CacheStack F)

/-- The keyword arguments of a call of `vadd`. -/
def vaddOptions (args : VAddArgs F) : VAddOptions where
  payload := some (.str args.payload)
  ex := args.ex
  tagMask := args.tagMask.getD 0
  tags := args.tags
  parentKey := args.parentKey.map .str

/-- The keyword arguments of a call of `vsearch`. -/
def vsearchOptions (args : VSearchArgs F) : VSearchOptions F where
  topK := args.topK
  threshold := args.threshold
  filterMask := args.filterMask.getD 0
  filterTags := args.filterTags

/-- What a call of the cache comes to on the client. -/
def call : (c : CacheCall F) → ClientScript c.Answer
  | .encode text => Script.lift (stack.encode text)
  | .get key => KacheClient.get (.str key)
  | .set key value ex => KacheClient.set (.str key) (.str value) ex none
  | .vadd args =>
    KacheClient.vadd stack.codec stack.tagEncoding (.str args.index) (.str args.itemId)
      (.floats args.vector) (vaddOptions args)
  | .vsearch args =>
    (KacheClient.vsearch stack.codec stack.tagEncoding stack.texts (.str args.index)
      (.floats args.queryVector) (vsearchOptions args)).map (·.map .vectorMatch)
  | .vdel index itemId => KacheClient.vdel (.str index) (.str itemId)

/-- The backend that stands for the layers below a cache. -/
def backend (d : Bool) (search : VectorSearch F) : Backend F where
  encode := stack.encode
  pack := stack.codec.pack
  decodeResponses := d
  tagEncoding := stack.tagEncoding
  search := search

/-- The calls of a cache are commands. -/
lemma calls_call (c : CacheCall F) : (stack.call c).Calls ClientCall.IsExecute := by
  have hcommand := KacheClient.calls_command
  cases c with
  | encode text => exact .lift _
  | get key => exact hcommand _
  | set key value ex => exact (hcommand _).map _
  | vadd args => exact (Script.Calls.lift _).bind fun _ => (hcommand _).map _
  | vsearch args => exact ((Script.Calls.lift _).bind fun _ => (hcommand _).map _).map _
  | vdel index itemId => exact (hcommand _).map _

end CacheStack

/-! ## Storing in bytes -/

/-- An item as a server of bytes stores it. -/
def VectorItem.wire (item : VectorItem) : WireItem where
  vector := item.vector
  payload := encodeUtf8 item.payload
  tags := item.tags
  parentKey := item.parentKey.map encodeUtf8

/-- The items of an index are stored in bytes, and nothing else is. -/
structure ItemsStoredIn (items : String → Option VectorItem) (w : Bytes → Option WireItem) :
    Prop where
  stored : ∀ id, w (encodeUtf8 id) = (items id).map VectorItem.wire
  texts : ∀ key item, w key = some item → ∃ id, key = encodeUtf8 id

/-- A server of bytes stores what a server has. -/
structure Server.StoredIn (s : Server) (w : WireServer) : Prop where
  kv : ∀ key, w.kv (encodeUtf8 key) = (s.kv key).map Stored.value
  index : ∀ name, ItemsStoredIn (s.index name) (w.index (encodeUtf8 name))

/-- A command is answered so, and the service behind it stores what this server has; `stores` says
what a service stores. -/
def Service.AnswersWith {σ : Type} (srv : Service σ) (stores : Server → σ → Prop) (args : List Arg)
    (w : σ) (reply : Reply) (s : Server) : Prop :=
  (srv.answer (rawArgs args) w).1 = reply ∧ stores s (srv.answer (rawArgs args) w).2

/-- A service answers the commands of a cache from what it stores. -/
structure Service.Serves {F σ : Type} (srv : Service σ) (stack : CacheStack F)
    (search : VectorSearch F) (scoreText : F → Bytes) (stores : Server → σ → Prop) : Prop where
  /-- The client reads the scores as they are. -/
  read : ∀ x, (RespValue.bytes (scoreText x)).score stack.codec = x
  get : ∀ {s w}, stores s w → ∀ key,
    srv.AnswersWith stores [.str "GET", .str key] w
      (bulkOrNull ((s.kv key).map Stored.value)) s
  set : ∀ {s w}, stores s w → ∀ key value ex writer,
    srv.AnswersWith stores (setCommand (.str key) (.str value) ex none) w okReply
      (s.setValue key (some ⟨encodeUtf8 value, writer⟩))
  vadd : ∀ {s w}, stores s w → ∀ (args : VAddArgs F) (dim : ℕ) (vector : Bytes) writer,
    srv.AnswersWith stores
      (vaddCommand stack.tagEncoding (.str args.index) (.str args.itemId) dim vector
        (CacheStack.vaddOptions args)) w (.integer 1)
      (s.setItem args.index args.itemId (some
        { vector := vector
          payload := args.payload
          tags := tagsToBitmask stack.tagEncoding args.tags (args.tagMask.getD 0)
          parentKey := args.parentKey
          origin := writer }))
  vsearch : ∀ {s w}, stores s w → ∀ (args : VSearchArgs F) (query : Bytes),
    srv.AnswersWith stores
      (vsearchCommand stack.codec stack.tagEncoding (.str args.index) query
        (CacheStack.vsearchOptions args)) w
      (.array ((search.find (s.index args.index) query args.topK args.threshold
          (tagsToBitmask stack.tagEncoding args.filterTags (args.filterMask.getD 0))).filterMap
        fun f => (s.index args.index f.1).map fun item =>
          item.wire.row (encodeUtf8 f.1) (scoreText f.2))) s
  vdel : ∀ {s w}, stores s w → ∀ index itemId,
    srv.AnswersWith stores [.str "VDEL", .str index, .str itemId] w
      (.integer (if (s.index index itemId).isSome then 1 else 0)) (s.setItem index itemId none)

/-- The search of a server of bytes finds what another search finds, and the client reads the
scores as they are. -/
structure WireSearch.Finds {F : Type} (wireSearch : WireSearch) (codec : VectorCodec F)
    (search : VectorSearch F) (scoreText : F → Bytes) : Prop where
  read : ∀ x, (RespValue.bytes (scoreText x)).score codec = x
  find : ∀ items w, ItemsStoredIn items w → ∀ query (topK : ℕ) threshold filter,
    wireSearch w query (encodeUtf8 (toString (topK : ℤ))) (encodeUtf8 (codec.repr threshold))
        filter =
      (search.find items query topK threshold filter).map fun f => (encodeUtf8 f.1, scoreText f.2)

section Storing

variable {s : Server} {w : WireServer}

/-- A value is stored. -/
lemma Server.StoredIn.setValue (hs : s.StoredIn w) (key : String) (stored : Stored) :
    (s.setValue key (some stored)).StoredIn
      { w with kv := Function.update w.kv (encodeUtf8 key) (some stored.value) } where
  kv key' := by
    by_cases hkey : key' = key
    · simp [hkey]
    · have hne : encodeUtf8 key' ≠ encodeUtf8 key := fun h => hkey (encodeUtf8_inj.mp h)
      simp [Server.setValue, hkey, hne, hs.kv]
  index := hs.index

/-- The items of an index with another item under an id. -/
lemma ItemsStoredIn.update {items : String → Option VectorItem} {w : Bytes → Option WireItem}
    (h : ItemsStoredIn items w) (id : String) (item : Option VectorItem) :
    ItemsStoredIn (Function.update items id item)
      (Function.update w (encodeUtf8 id) (item.map VectorItem.wire)) where
  stored id' := by
    by_cases hid : id' = id
    · simp [hid]
    · have hne : encodeUtf8 id' ≠ encodeUtf8 id := fun h => hid (encodeUtf8_inj.mp h)
      simp [hid, hne, h.stored]
  texts key item' hitem := by
    by_cases hkey : key = encodeUtf8 id
    · exact ⟨id, hkey⟩
    · rw [Function.update_of_ne hkey] at hitem
      exact h.texts key item' hitem

/-- An item is stored or deleted. -/
lemma Server.StoredIn.setItem (hs : s.StoredIn w) (index id : String) (item : Option VectorItem) :
    (s.setItem index id item).StoredIn
      (w.setItem (encodeUtf8 index) (encodeUtf8 id) (item.map VectorItem.wire)) where
  kv := hs.kv
  index name := by
    by_cases hname : name = index
    · subst hname
      simpa [Server.setItem, WireServer.setItem] using (hs.index name).update id item
    · have hne : encodeUtf8 name ≠ encodeUtf8 index := fun h => hname (encodeUtf8_inj.mp h)
      simpa [Server.setItem, WireServer.setItem, hname, hne] using hs.index name

end Storing

/-! ## Searching -/

section Searching

variable {F σ : Type} {stack : CacheStack F} {search : VectorSearch F} {wireSearch : WireSearch}
  {scoreText : F → Bytes} {srv : Service σ} {stores : Server → σ → Prop}
  {items : String → Option VectorItem} {w : Bytes → Option WireItem}

/-- The rows that a server of bytes answers with. -/
lemma ItemsStoredIn.rows (h : ItemsStoredIn items w) (found : List (String × F)) :
    ((found.map fun f => (encodeUtf8 f.1, scoreText f.2)).filterMap fun f =>
        (w f.1).map (WireItem.row f.1 f.2)) =
      found.filterMap fun f => (items f.1).map fun item =>
        item.wire.row (encodeUtf8 f.1) (scoreText f.2) := by
  induction found with
  | nil => rfl
  | cons f found ih =>
    rw [List.map_cons, List.filterMap_cons, List.filterMap_cons, h.stored, ih]
    cases items f.1 <;> rfl

/-- **The server of bytes serves a cache.** -/
theorem WireServer.serves (hfinds : wireSearch.Finds stack.codec search scoreText) :
    (WireServer.service wireSearch).Serves stack search scoreText Server.StoredIn where
  read := hfinds.read
  get hs key := by
    rw [Service.AnswersWith, answer_get, hs.kv]
    exact ⟨rfl, hs⟩
  set hs key value ex writer := by
    rw [Service.AnswersWith, answer_set]
    exact ⟨rfl, hs.setValue key ⟨encodeUtf8 value, writer⟩⟩
  vadd hs args dim vector writer := by
    rw [Service.AnswersWith, answer_vadd]
    have hitem := hs.setItem args.index args.itemId (some
      { vector := vector
        payload := args.payload
        tags := tagsToBitmask stack.tagEncoding args.tags (args.tagMask.getD 0)
        parentKey := args.parentKey
        origin := writer })
    refine ⟨rfl, ?_⟩
    simpa [VectorItem.wire, CacheStack.vaddOptions, Arg.raw, Function.comp_def] using hitem
  vsearch {s w} hs args query := by
    have hfind := hfinds.find (s.index args.index) (w.index (encodeUtf8 args.index))
      (hs.index args.index) query args.topK args.threshold
      (tagsToBitmask stack.tagEncoding args.filterTags (args.filterMask.getD 0))
    rw [Service.AnswersWith, answer_vsearch, ← (hs.index args.index).rows]
    simp only [CacheStack.vsearchOptions, hfind]
    exact ⟨trivial, hs⟩
  vdel hs index itemId := by
    rw [Service.AnswersWith, answer_vdel, (hs.index index).stored, Option.isSome_map]
    exact ⟨rfl, hs.setItem index itemId none⟩

/-- The client makes the same match of a row as the backend. -/
lemma Service.Serves.vectorMatch_rowValue (hserves : srv.Serves stack search scoreText stores)
    (texts : Texts) (id : String) (x : F) (item : VectorItem) :
    ((item.wire.rowValue (encodeUtf8 id) (scoreText x)).vectorMatch stack.codec texts).map
      Row.vectorMatch = some (rowOf id x item) := by
  have hread := hserves.read x
  unfold VectorItem.wire WireItem.rowValue rowOf
  cases item.parentKey <;>
    simp [RespValue.vectorMatch, RespValue.idItem, RespValue.payloadItem, hread]

/-- The rows of an answer to `VSEARCH`, one for each match that is an item. -/
lemma rows_eq_map (found : List (String × F)) :
    (found.filterMap fun f => (items f.1).map fun item =>
        item.wire.row (encodeUtf8 f.1) (scoreText f.2)) =
      (found.filterMap fun f => (items f.1).map fun item =>
        (encodeUtf8 f.1, scoreText f.2, item.wire)).map fun r => r.2.2.row r.1 r.2.1 := by
  rw [List.map_filterMap]
  simp only [Option.map_map, Function.comp_def]

/-- What the client makes of these rows. -/
lemma Service.Serves.matches_rows (hserves : srv.Serves stack search scoreText stores)
    (texts : Texts) (found : List (String × F)) :
    (((found.filterMap fun f => (items f.1).map fun item =>
        (encodeUtf8 f.1, scoreText f.2, item.wire)).map fun r =>
          r.2.2.rowValue r.1 r.2.1).filterMap (RespValue.vectorMatch stack.codec texts)).map
        Row.vectorMatch =
      found.filterMap fun f => (items f.1).map (rowOf f.1 f.2) := by
  induction found with
  | nil => rfl
  | cons f found ih =>
    rw [List.filterMap_cons, List.filterMap_cons]
    cases hitem : items f.1 with
    | none => exact ih
    | some item =>
      have hrow := hserves.vectorMatch_rowValue texts f.1 f.2 item
      obtain ⟨m, hm, hmatch⟩ := Option.map_eq_some_iff.mp hrow
      simp only [Option.map_some, List.map_cons, List.filterMap_cons, hm, hmatch, ih]

end Searching

/-! ## The layers together -/

namespace CacheStack

variable {F σ : Type} {stack : CacheStack F} {search : VectorSearch F} {scoreText : F → Bytes}
  {srv : Service σ} {stores : Server → σ → Prop}

/-- **Every call of a cache has the outcome that the backend gives it.** -/
theorem call_simulates (hserves : srv.Serves stack search scoreText stores) (limit : ℕ)
    (d : Bool) (writer : Option SetArgs) :
    Handler.Simulates (fun _ => True) (fun w s => stores s w)
      (Script.implement stack.call (srv.handle (limit + 3) d))
      ((stack.backend d search).handle writer) := by
  intro c w s _ hs
  cases c with
  | encode text =>
    simp only [Script.implement, call, Script.run_lift, backend, Backend.handle]
    exact ⟨trivial, hs⟩
  | get key =>
    obtain ⟨hreply, hnext⟩ := hserves.get hs key
    simp only [Script.implement, call, KacheClient.get, KacheClient.command, Script.run_ask,
      Service.handle, hreply, decoded_bulkOrNull, Backend.handle, backend]
    cases s.kv key with
    | none => exact ⟨by cases d <;> rfl, hnext⟩
    | some stored => exact ⟨rfl, hnext⟩
  | set key value ex =>
    obtain ⟨hreply, hnext⟩ := hserves.set hs key value ex writer
    simp only [Script.implement, call, KacheClient.set, KacheClient.command, Script.run_map,
      Script.run_ask, Service.handle, hreply, decoded_okReply, Backend.handle]
    exact ⟨rfl, hnext⟩
  | vadd args =>
    simp only [Script.implement, call, KacheClient.vadd, Script.bind_eq, Script.run_bind,
      Script.run_lift, VectorArg.packed, Backend.handle, backend]
    cases stack.codec.pack args.vector with
    | error e => exact ⟨rfl, hs⟩
    | ok vector =>
      obtain ⟨hreply, hnext⟩ :=
        hserves.vadd hs args (VectorArg.floats args.vector).dim vector writer
      simp only [KacheClient.command, Script.run_map, Script.run_ask, Service.handle, hreply,
        decoded_integer]
      exact ⟨rfl, hnext⟩
  | vsearch args =>
    simp only [Script.implement, call, KacheClient.vsearch, Script.run_map, Script.bind_eq,
      Script.run_bind, Script.run_lift, VectorArg.packed, Backend.handle, backend]
    cases stack.codec.pack args.queryVector with
    | error e => exact ⟨rfl, hs⟩
    | ok query =>
      obtain ⟨hreply, hnext⟩ := hserves.vsearch hs args query
      rw [rows_eq_map] at hreply
      simp only [KacheClient.command, Script.run_ask, Service.handle, hreply, decoded_rows]
      refine ⟨?_, hnext⟩
      exact congrArg Except.ok (hserves.matches_rows stack.texts _)
  | vdel index itemId =>
    obtain ⟨hreply, hnext⟩ := hserves.vdel hs index itemId
    simp only [Script.implement, call, KacheClient.vdel, KacheClient.command, Script.run_map,
      Script.run_ask, Service.handle, hreply, decoded_integer, Backend.handle]
    refine ⟨?_, hnext⟩
    cases s.index index itemId <;> rfl

end CacheStack

/-! ## Histories -/

namespace CacheOp

variable {F : Type} (c : SemanticCache F)

/-- What a call of a method runs. -/
def script : CacheOp → CacheScript F Bool
  | .set r => c.set r
  | .delete prompt => c.delete prompt

/-- Calls one after the other, each of which may raise. -/
def program : List CacheOp → CacheScript F Unit
  | [] => .pure ()
  | op :: ops => (op.script c).attempt.bind fun _ => program ops

end CacheOp

namespace CacheStack

variable {F σ : Type} {stack : CacheStack F} {search : VectorSearch F} {scoreText : F → Bytes}
  {srv : Service σ} {stores : Server → σ → Prop} {s : Server} {w : σ}

/-- Behind a history the service stores what the backend's server has. -/
lemma run_program (hserves : srv.Serves stack search scoreText stores) (limit : ℕ) (d : Bool)
    (c : SemanticCache F) (ops : List CacheOp) (hs : stores s w) :
    ∃ w', (CacheOp.program c ops).run
        (Script.implement stack.call (srv.handle (limit + 3) d)) w = (.ok (), w') ∧
      stores ((stack.backend d search).runOps c ops s) w' := by
  induction ops generalizing s w with
  | nil => exact ⟨w, rfl, hs⟩
  | cons op ops ih =>
    have hstep : stores ((stack.backend d search).step c s op) ((op.script c).run
        (Script.implement stack.call (srv.handle (limit + 3) d)) w).2 := by
      cases op with
      | set r =>
        exact ((call_simulates hserves limit d (some r)).run ((c.set r).calls_true) hs).2
      | delete prompt =>
        exact ((call_simulates hserves limit d none).run ((c.delete prompt).calls_true) hs).2
    obtain ⟨w', hrun, hs'⟩ := ih hstep
    refine ⟨w', ?_, hs'⟩
    rw [CacheOp.program, Script.run_bind_of_ok (Script.run_attempt _ _ _), hrun]

variable (stack srv w) in
/-- `get` behind a history of calls, on a client with a service behind the wire. -/
def getAfter (limit : ℕ) (links : ℕ → Link) (client : KacheClient) (floats : Floats F)
    (c : SemanticCache F) (ops : List CacheOp) (q : GetArgs F) :
    Except Exc (Option (SearchResult F)) × σ :=
  Remote.runOn limit srv links client w
    (((CacheOp.program c ops).bind fun _ => c.get floats q).interpret stack.call)

/-- **The semantic cache through all its layers.**  After any history of calls of `set` and
`delete`, on a new client, with a service that serves caches behind any network, `get` finds what it
finds on the backend after the same history; and the service stores what the backend's server
has. -/
theorem getAfter_eq_lookup (hserves : srv.Serves stack search scoreText stores)
    {password : Option String} (hup : srv.Up password) (links : ℕ → Link) (limit : ℕ)
    (host : String) (port : ℕ) {maxConnections : ℕ} (hroom : 1 ≤ maxConnections) (d : Bool)
    (floats : Floats F) (c : SemanticCache F) (ops : List CacheOp) (q : GetArgs F)
    (hs : stores s w) :
    (stack.getAfter srv w (limit + 3) links (.new host port maxConnections d password)
        floats c ops q).1 =
      (stack.backend d search).lookup floats c ((stack.backend d search).runOps c ops s) q ∧
    stores ((stack.backend d search).runOps c ops s)
      (stack.getAfter srv w (limit + 3) links (.new host port maxConnections d password)
        floats c ops q).2 := by
  -- the wire is left out, and the scripts of the calls are put in
  obtain ⟨hres, hnext⟩ := (Remote.simulates hup (limit + 2) d links).run
    (Script.Calls.interpret stack.calls_call
      ((CacheOp.program c ops).bind fun _ => c.get floats q))
    (Remote.matches_new host port hroom d password w)
  rw [Script.run_interpret stack.call (srv.handle (limit + 3) d)] at hres hnext
  -- the history, and then the search
  obtain ⟨w', hrun, hs'⟩ := run_program hserves limit d c ops hs
  rw [Script.run_bind_of_ok hrun] at hres hnext
  obtain ⟨hget, hstored⟩ := (call_simulates hserves limit d none).run
    ((c.get floats q).calls_true) hs'
  rw [Backend.run_get] at hget hstored
  refine ⟨hres.trans hget, ?_⟩
  rw [← hnext.server_eq] at hstored
  exact hstored

/-! ### A server -/

/-- Numbers as floats; they are written in decimal form. -/
def natCodec : VectorCodec ℕ where
  pack _ := .ok []
  zero := 0
  parse s := .ok (Nat.ofDigitChars 10 s.toList 0)
  ofInt n := .ok n.toNat
  repr := toString

/-- Natural numbers in the place of floats. -/
def natFloats : Floats ℕ :=
  ⟨1, fun _ => .error (.valueError "could not convert to float"), toString, (· != 0)⟩

/-- A stack whose vectors have no coordinates. -/
def natStack : CacheStack ℕ where
  encode _ := .ok []
  codec := natCodec
  tagEncoding := ⟨fun _ => [], id⟩
  texts := .plain

/-- A search that finds the item with the id `hi`. -/
def findHi : VectorSearch ℕ where
  find items _ _ _ filter :=
    match items "hi" with
    | some item => if item.tags &&& filter = filter then [("hi", 7)] else []
    | none => []
  lawful items query topK threshold filter found hfound := by
    cases hitem : items "hi" with
    | none => simp [hitem] at hfound
    | some item =>
      by_cases hfilter : item.tags &&& filter = filter
      · obtain rfl : found = ("hi", 7) := by simpa [hitem, hfilter] using hfound
        exact ⟨item, hitem, hfilter⟩
      · simp [hitem, hfilter] at hfound

/-- The same search among items in bytes. -/
def findHiBytes : WireSearch :=
  fun w _ _ _ filter =>
    match w (encodeUtf8 "hi") with
    | some item =>
      if item.tags &&& filter = filter then [(encodeUtf8 "hi", encodeUtf8 (toString 7))] else []
    | none => []

lemma finds_findHiBytes :
    findHiBytes.Finds natCodec findHi fun x : ℕ => encodeUtf8 (toString x) where
  read x := by
    simp [RespValue.score, natCodec, decodeText, Except.bind, VectorCodec.orZero,
      Except.toOption]
  find items w h query topK threshold filter := by
    simp only [findHiBytes, findHi, h.stored]
    cases items "hi" with
    | none => rfl
    | some item =>
      simp only [Option.map_some, VectorItem.wire]
      split_ifs <;> rfl

lemma storedIn_empty : (Server.start fun _ => none).StoredIn ⟨fun _ => none, fun _ _ => none⟩ where
  kv _ := rfl
  index _ := ⟨fun _ => rfl, fun _ _ h => absurd h (Option.some_ne_none _).symm⟩

/-- Two prompts are stored and one of them is deleted; the other is found by its meaning. -/
theorem getAfter_eq_lookup_hi :
    (natStack.getAfter (WireServer.service findHiBytes) ⟨fun _ => none, fun _ _ => none⟩ 3
        Remote.bytewiseLinks (.new "127.0.0.1" 6379 1 false (some "secret")) natFloats
        { similarityThreshold := 5 }
        [.set { prompt := "hi", response := "hello" }, .set { prompt := "bye", response := "ciao" },
          .delete "bye"] { prompt := "hey" }).1 =
      (natStack.backend false findHi).lookup natFloats { similarityThreshold := 5 }
        ((natStack.backend false findHi).runOps { similarityThreshold := 5 }
          [.set { prompt := "hi", response := "hello" },
            .set { prompt := "bye", response := "ciao" }, .delete "bye"] (.start fun _ => none))
        { prompt := "hey" } ∧
    Server.StoredIn
      ((natStack.backend false findHi).runOps { similarityThreshold := 5 }
        [.set { prompt := "hi", response := "hello" }, .set { prompt := "bye", response := "ciao" },
          .delete "bye"] (.start fun _ => none))
      (natStack.getAfter (WireServer.service findHiBytes) ⟨fun _ => none, fun _ _ => none⟩ 3
        Remote.bytewiseLinks (.new "127.0.0.1" 6379 1 false (some "secret")) natFloats
        { similarityThreshold := 5 }
        [.set { prompt := "hi", response := "hello" }, .set { prompt := "bye", response := "ciao" },
          .delete "bye"] { prompt := "hey" }).2 :=
  getAfter_eq_lookup (WireServer.serves finds_findHiBytes)
    (WireServer.up_service findHiBytes (some "secret")) Remote.bytewiseLinks 0 "127.0.0.1" 6379
    le_rfl false natFloats _ _ _ storedIn_empty

end CacheStack

end KacheDB
