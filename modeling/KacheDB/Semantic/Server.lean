import KacheDB.Connection
import KacheDB.Semantic.Cache
import KacheDB.Tags

/-!
# The server of a semantic cache

A model of the server: a map of keys to values and, for each index, a map of ids to items.  The
search of an index is a parameter of which two things are known, that it finds only items that
are there and that each of them has the bits of the filter (`VectorSearch`).

Every value and every item remembers the call of `set` that wrote it.  The server does not store
this; it is how the statements about a cache say where a result comes from.

`Backend.handle` answers the calls of a cache, and `run_get` says what `get` finds on a server,
in the terms of its two maps.
-/

namespace KacheDB

open Foundation CacheScript

/-- A value of the key-value store, and the call of `set` that wrote it, if one did. -/
structure Stored where
  value : Bytes
  origin : Option SetArgs

/-- An item of an index, and the call of `set` that wrote it.  `tags` is 0 for an item without
tags. -/
structure VectorItem where
  vector : Bytes
  payload : String
  tags : ℕ
  parentKey : Option String
  origin : Option SetArgs
  deriving DecidableEq

/-- The parent key of an item, if it is not empty. -/
def VectorItem.parent (item : VectorItem) : Option String :=
  item.parentKey.filter (· != "")

/-- The state of a server. -/
structure Server where
  kv : String → Option Stored
  index : String → String → Option VectorItem

namespace Server

/-- The store with another value under a key. -/
def setValue (s : Server) (key : String) (stored : Option Stored) : Server :=
  { s with kv := Function.update s.kv key stored }

/-- The index with another item under an id. -/
def setItem (s : Server) (index itemId : String) (item : Option VectorItem) : Server :=
  { s with index := Function.update s.index index (Function.update (s.index index) itemId item) }

/-- A server with values from elsewhere and without items. -/
def start (foreign : String → Option Bytes) : Server where
  kv key := (foreign key).map fun value => ⟨value, none⟩
  index _ _ := none

variable (s : Server) (key index itemId : String) (stored : Option Stored)
  (item : Option VectorItem)

/-- The text under a key. -/
def text : Option String :=
  (s.kv key).bind fun stored => decodeUtf8 stored.value

@[simp] lemma kv_setValue : (s.setValue key stored).kv = Function.update s.kv key stored := rfl

@[simp] lemma kv_setItem : (s.setItem index itemId item).kv = s.kv := rfl

@[simp] lemma index_setItem_self : (s.setItem index itemId item).index index =
    Function.update (s.index index) itemId item := by
  simp [setItem]

end Server

/-- `VSEARCH`: the ids and scores that are found among these items.  The filter is 0 where none is
sent. -/
structure VectorSearch (F : Type) where
  find : (String → Option VectorItem) → (query : Bytes) → (topK : ℕ) → (threshold : F) →
    (filter : ℕ) → List (String × F)
  /-- What is found is there and has the bits of the filter. -/
  lawful : ∀ items query topK threshold filter, ∀ found ∈ find items query topK threshold filter,
    ∃ item, items found.1 = some item ∧ item.tags &&& filter = filter

/-- A call of a cache that changes the server. -/
inductive CacheOp : Type where
  | set (r : SetArgs)
  | delete (prompt : String)

/-- What stands behind a cache besides the state of its server. -/
structure Backend (F : Type) where
  /-- `embedder.encode` -/
  encode : String → Except Exc (List F)
  /-- `struct.pack` of a vector. -/
  pack : List F → Except Exc Bytes
  /-- `decode_responses` of the client. -/
  decodeResponses : Bool
  tagEncoding : TagEncoding
  search : VectorSearch F

variable {F : Type}

namespace Backend

variable (b : Backend F) (floats : Floats F) (c : SemanticCache F)

/-- The mask that `vadd` and `vsearch` send. -/
def sentMask (tags : Option (List String)) (mask : Option ℤ) : ℕ :=
  tagsToBitmask b.tagEncoding tags (mask.getD 0)

/-- The item that `vadd` stores. -/
def itemOf (writer : Option SetArgs) (args : VAddArgs F) (vector : Bytes) : VectorItem where
  vector := vector
  payload := args.payload
  tags := b.sentMask args.tags args.tagMask
  parentKey := args.parentKey
  origin := writer

/-- A row of a search result, as the client makes it from the server's answer. -/
def rowOf (id : String) (score : F) (item : VectorItem) : Row F :=
  .vectorMatch
    { id := .bytes (encodeUtf8 id)
      score := .float score
      payload := .bytes (encodeUtf8 item.payload)
      parentKey := item.parentKey.elim .none fun key => .bytes (encodeUtf8 key) }

/-- The client and the server answer the calls of a cache; what is written is marked as written
by `writer`.  Nothing expires here: lifetimes are those of `TimedServer`. -/
def handle (writer : Option SetArgs) : Handler (CacheCall F) CacheCall.Answer Exc Server
  | .encode text, s => (b.encode text, s)
  | .get key, s =>
    match s.kv key with
    | some stored => (decodeResponse b.decodeResponses (.bytes stored.value), s)
    | none => (.ok .none, s)
  | .set key value _, s => (.ok true, s.setValue key (some ⟨encodeUtf8 value, writer⟩))
  | .vadd args, s =>
    match b.pack args.vector with
    | .error e => (.error e, s)
    | .ok vector =>
      (.ok true, s.setItem args.index args.itemId (some (b.itemOf writer args vector)))
  | .vsearch args, s =>
    match b.pack args.queryVector with
    | .error e => (.error e, s)
    | .ok query =>
      (.ok ((b.search.find (s.index args.index) query args.topK args.threshold
        (b.sentMask args.filterTags args.filterMask)).filterMap fun found =>
          (s.index args.index found.1).map (rowOf found.1 found.2)), s)
  | .vdel index itemId, s =>
    (.ok (s.index index itemId).isSome, s.setItem index itemId none)

/-! ## Writing -/

/-- The state after one call, whether it returns or raises. -/
def step (s : Server) : CacheOp → Server
  | .set r => ((c.set r).run (b.handle (some r)) s).2
  | .delete prompt => ((c.delete prompt).run (b.handle none) s).2

/-- The state after these calls. -/
def runOps (ops : List CacheOp) (s : Server) : Server :=
  ops.foldl (b.step c) s

/-- The bytes of the vector of a text. -/
def embed (text : String) : Except Exc Bytes :=
  (b.encode text).bind b.pack

/-- The item of a call of `set`. -/
def item (r : SetArgs) (vector : Bytes) : VectorItem where
  vector := vector
  payload := r.response
  tags := b.sentMask r.tags (positiveMask r.tagMask)
  parentKey := r.parentKey
  origin := some r

/-- The server with the exact copy of a call of `set`. -/
def withCopy (s : Server) (r : SetArgs) : Server :=
  if c.copies r then
    s.setValue (c.docKey (strip r.prompt)) (some ⟨encodeUtf8 r.response, some r⟩)
  else s

/-- The server with the item of a call of `set`, if its prompt has a vector. -/
def withItem (s : Server) (r : SetArgs) : Server :=
  match b.embed r.prompt with
  | .ok vector => s.setItem c.indexName r.prompt (some (b.item r vector))
  | .error _ => s

variable {b c}

/-- A call of `set` makes the exact copy first and then the item. -/
lemma step_set (s : Server) (r : SetArgs) :
    b.step c s (.set r) = b.withItem c (withCopy c s r) r := by
  have hcopy : (c.storeCopy r).run (b.handle (some r)) s = (.ok (), withCopy c s r) := by
    unfold SemanticCache.storeCopy withCopy
    split_ifs <;> rfl
  have hset : (c.set r).run (b.handle (some r)) s =
      ((CacheScript.encode r.prompt).bind fun vector => vadd (c.vaddArgs r vector)).run
        (b.handle (some r)) (withCopy c s r) :=
    Script.run_bind_of_ok hcopy
  rw [step, hset, Script.run_bind, CacheScript.encode, Script.run_ask, withItem, embed, handle]
  cases b.encode r.prompt with
  | error e => rfl
  | ok vector =>
    simp only [vadd, Script.run_ask, handle, SemanticCache.vaddArgs, Except.bind]
    cases b.pack vector <;> rfl

/-- A call of `delete` takes the item away. -/
lemma step_delete (s : Server) (prompt : String) :
    b.step c s (.delete prompt) = s.setItem c.indexName prompt none := rfl

/-- Keys of different prompts are different. -/
lemma docKey_inj {x y : String} : c.docKey x = c.docKey y ↔ x = y := by
  constructor
  · intro h
    have hchars := congrArg String.toList h
    simp only [SemanticCache.docKey, String.toList_append] at hchars
    exact String.toList_inj.mp (List.append_cancel_left hchars)
  · intro h
    rw [h]

/-- The calls that make an exact copy under this key. -/
def copyOf (c : SemanticCache F) (cleanPrompt : String) : CacheOp → Option SetArgs
  | .set r => if c.copies r ∧ strip r.prompt = cleanPrompt then some r else none
  | .delete _ => none

/-- The last of these calls. -/
def lastCopy (c : SemanticCache F) (ops : List CacheOp) (cleanPrompt : String) : Option SetArgs :=
  (ops.filterMap (copyOf c cleanPrompt)).getLast?

@[simp] lemma kv_withItem (s : Server) (r : SetArgs) : (b.withItem c s r).kv = s.kv := by
  unfold withItem
  cases b.embed r.prompt <;> rfl

/-- The value of an exact key after one call. -/
lemma kv_step_docKey (s : Server) (op : CacheOp) (x : String) :
    (b.step c s op).kv (c.docKey x) =
      match copyOf c x op with
      | some r => some ⟨encodeUtf8 r.response, some r⟩
      | none => s.kv (c.docKey x) := by
  cases op with
  | delete prompt => rfl
  | set r =>
    rw [step_set, kv_withItem, withCopy, copyOf]
    by_cases hcopy : c.copies r = true
    · by_cases hx : strip r.prompt = x
      · simp [hcopy, hx]
      · have hne : c.docKey x ≠ c.docKey (strip r.prompt) := fun h => hx (docKey_inj.mp h).symm
        simp [hcopy, hx, hne]
    · simp [hcopy]

/-- **An exact key has the response of the last call that made a copy under it.** -/
theorem kv_runOps_docKey (s : Server) (ops : List CacheOp) (x : String) :
    (b.runOps c ops s).kv (c.docKey x) =
      match lastCopy c ops x with
      | some r => some ⟨encodeUtf8 r.response, some r⟩
      | none => s.kv (c.docKey x) := by
  induction ops using List.reverseRecOn with
  | nil => rfl
  | append_singleton ops op ih =>
    rw [runOps, List.foldl_concat, kv_step_docKey, lastCopy, List.filterMap_append]
    cases hop : copyOf c x op with
    | some r => simp [hop]
    | none =>
      simp only [List.filterMap_cons, hop, List.filterMap_nil, List.append_nil]
      exact ih

/-! ## Reading -/

variable (b c)

/-- The text of the exact copy of a prompt, if `get` looks for it. -/
def exactText (s : Server) (q : GetArgs F) : Option String :=
  if q.exactFirst && c.workspace != "" then s.text (c.docKey (strip q.prompt)) else none

/-- What the search of `get` finds. -/
def found (s : Server) (q : GetArgs F) (query : Bytes) : List (String × F) :=
  b.search.find (s.index c.indexName) query 1 (q.threshold.getD c.similarityThreshold)
    (b.sentMask q.filterTags (positiveMask q.filterMask))

/-- The text of the parent of an item, if `get` looks for it. -/
def parentText (s : Server) (q : GetArgs F) (item : VectorItem) : Option String :=
  if q.resolveParent then item.parent.bind s.text else none

/-- The result of a match. -/
def matchResult (s : Server) (q : GetArgs F) (id : String) (score : F) (item : VectorItem) :
    SearchResult F where
  key := id
  similarity := score
  value := (parentText s q item).getD item.payload
  parentKey := item.parent
  chunk := item.parent.map fun _ => item.payload

/-- What `get` comes to, in the terms of the server. -/
def lookup (s : Server) (q : GetArgs F) : Except Exc (Option (SearchResult F)) :=
  match exactText c s q with
  | some text =>
    .ok (some { key := strip q.prompt, similarity := floats.one, value := text, isExact := true })
  | none =>
    match b.embed q.prompt with
    | .error e => .error e
    | .ok query =>
      match b.found c s q query with
      | [] => .ok none
      | (id, score) :: _ => .ok ((s.index c.indexName id).map (matchResult s q id score))

variable {b c floats} {writer : Option SetArgs} {s : Server}

/-- A key that is looked up within `try` and `except Exception: pass`. -/
lemma run_getText (key : String) (f : String → SearchResult F) :
    (exceptPass (do
      let v ← clientGet key
      match valueText v with
      | some text =>
        let valStr ← Script.lift text
        pure (some (f valStr))
      | none => pure none)).run (b.handle writer) s = (.ok ((s.text key).map f), s) := by
  simp only [exceptPass, Script.run_tryCatch, Script.bind_eq, Script.run_bind, clientGet,
    Script.run_ask, handle, Server.text]
  cases hkv : s.kv key with
  | none => simp [valueText, Script.pure_eq]
  | some stored =>
    cases hdec : decodeUtf8 stored.value <;> cases hflag : b.decodeResponses <;>
      simp [decodeResponse, valueText, decodeText, hdec, Script.run_bind, Script.pure_eq,
        Exc.isException]

variable (b c floats writer s) in
/-- The exact step. -/
lemma run_exactMatch (q : GetArgs F) :
    (c.exactMatch floats q.prompt q.exactFirst).run (b.handle writer) s =
      (.ok ((exactText c s q).map fun text =>
        { key := strip q.prompt, similarity := floats.one, value := text, isExact := true }),
        s) := by
  unfold SemanticCache.exactMatch exactText
  split_ifs
  · exact run_getText _ _
  · rfl

/-- The fields of a row; an empty parent key is none. -/
lemma fields_rowOf (id : String) (score : F) (item : VectorItem) :
    (rowOf id score item).fields floats = .ok ⟨id, score, item.payload, item.parent⟩ := by
  have hparent : ((rowOf id score item).rawParent floats).bind (Item.parentText floats) =
      .ok item.parent := by
    unfold rowOf Row.rawParent Row.parentAttr VectorItem.parent
    cases item.parentKey with
    | none => rfl
    | some key =>
      by_cases hkey : key = ""
      · subst hkey
        rfl
      · have hbytes : encodeUtf8 key ≠ [] := by
          intro hnil
          apply hkey
          have hdec := decodeUtf8_encodeUtf8 key
          rw [hnil] at hdec
          exact (Option.some.inj hdec).symm
        simp [Item.truthy, hbytes, hkey, Except.bind, Item.parentText, Item.text, decodeText,
          Except.map, Option.filter]
  have hkey : ((rowOf id score item).item 0).bind (Item.text floats) = .ok id := by
    simp [rowOf, Row.item, Except.bind, Item.text, decodeText]
  have hpayload : ((rowOf id score item).itemOrNone 2).bind (Item.payloadText floats) =
      .ok item.payload := by
    simp [rowOf, Row.itemOrNone, Row.len, Row.item, Except.bind, Item.payloadText, decodeText]
  unfold Row.fields
  rw [hkey, hparent, hpayload]
  rfl

/-- A parent key that is there is not empty. -/
lemma any_parent (item : VectorItem) : item.parent.any (· != "") = item.parent.isSome := by
  cases hparent : item.parent with
  | none => rfl
  | some key => exact (Option.filter_eq_some_iff.mp hparent).2

/-- A parent with a text has a key. -/
lemma parent_of_parentText {q : GetArgs F} {item : VectorItem} {content : String}
    (h : parentText s q item = some content) : ∃ key, item.parent = some key := by
  unfold parentText at h
  split_ifs at h
  obtain ⟨key, hkey, -⟩ := Option.bind_eq_some_iff.mp h
  exact ⟨key, hkey⟩

/-- The parent of a match. -/
lemma run_expandParent (q : GetArgs F) (id : String) (score : F) (item : VectorItem) :
    (SemanticCache.expandParent ⟨id, score, item.payload, item.parent⟩ q.resolveParent).run
        (b.handle writer) s =
      (.ok ((parentText s q item).map fun content =>
        { key := id
          similarity := score
          value := content
          parentKey := item.parent
          chunk := some item.payload }), s) := by
  unfold SemanticCache.expandParent parentText MatchFields.hasParent
  rw [any_parent]
  cases hparent : item.parent with
  | none => simp [Script.pure_eq]
  | some key =>
    cases q.resolveParent with
    | false => rfl
    | true => exact run_getText _ _

/-- The search. -/
lemma run_search (q : GetArgs F) :
    (c.search q).run (b.handle writer) s =
      ((b.embed q.prompt).map fun query => (b.found c s q query).filterMap fun found =>
        (s.index c.indexName found.1).map (rowOf found.1 found.2), s) := by
  simp only [SemanticCache.search, Script.bind_eq, Script.run_bind, CacheScript.encode,
    Script.run_ask, handle, embed]
  cases b.encode q.prompt with
  | error e => rfl
  | ok vector =>
    simp only [vsearch, Script.run_ask, handle, SemanticCache.vsearchArgs, Except.bind]
    cases b.pack vector <;> rfl

/-- **What `get` finds on a server.** -/
theorem run_get (q : GetArgs F) :
    (c.get floats q).run (b.handle writer) s = (b.lookup floats c s q, s) := by
  unfold SemanticCache.get lookup
  rw [Script.bind_eq, Script.run_bind, run_exactMatch]
  cases exactText c s q with
  | some text => rfl
  | none =>
    dsimp only [Option.map_none]
    unfold SemanticCache.vectorMatch
    rw [Script.bind_eq, Script.run_bind, run_search]
    cases b.embed q.prompt with
    | error e => rfl
    | ok query =>
      dsimp only [Except.map]
      cases hfound : b.found c s q query with
      | nil => rfl
      | cons first rest =>
        -- what is found is there
        obtain ⟨item, hitem, -⟩ := b.search.lawful _ _ _ _ _ first
          (by rw [← found, hfound]; exact List.mem_cons_self)
        simp only [List.filterMap_cons, hitem, Option.map_some, Script.bind_eq,
          Script.run_bind, Script.run_lift, fields_rowOf, run_expandParent]
        cases hcontent : parentText s q item with
        | none =>
          simp only [MatchFields.hasParent, any_parent, Option.map_none, Script.pure_eq,
            Script.run_pure, matchResult, hcontent, Option.getD_none]
          cases item.parent <;> rfl
        | some content =>
          obtain ⟨key, hkey⟩ := parent_of_parentText hcontent
          simp [Script.pure_eq, matchResult, hcontent, hkey]

variable (b floats c s) in
/-- The exact results are the texts under the exact keys. -/
lemma lookup_isExact_iff (q : GetArgs F) (result : SearchResult F) :
    (b.lookup floats c s q = .ok (some result) ∧ result.isExact = true) ↔
      ∃ text, exactText c s q = some text ∧
        result = { key := strip q.prompt, similarity := floats.one, value := text,
                   isExact := true } := by
  rw [lookup]
  constructor
  · rintro ⟨hresult, hexact⟩
    cases htext : exactText c s q with
    | some text =>
      rw [htext] at hresult
      exact ⟨text, rfl, (Option.some.inj (Except.ok.inj hresult)).symm⟩
    | none =>
      -- a match of the index is not exact
      exfalso
      simp only [htext] at hresult
      split at hresult
      · cases hresult
      · split at hresult
        · cases hresult
        · obtain ⟨item, -, rfl⟩ := Option.map_eq_some_iff.mp (Except.ok.inj hresult)
          cases hexact
  · rintro ⟨text, htext, rfl⟩
    rw [htext]
    exact ⟨rfl, rfl⟩

end Backend

end KacheDB
