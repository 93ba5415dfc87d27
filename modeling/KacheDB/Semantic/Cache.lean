import KacheDB.Exceptions
import KacheDB.Foundation.Script
import KacheDB.Foundation.Text

/-!
# The semantic cache

`SemanticCache` stores a prompt with its response in two places, under a key of the key-value
store and as an item of a vector index, and finds it in both.  Its methods are scripts: what
they call is the client and the embedder.

Floating-point numbers are of a type `F`, of which only what the code uses is known.
-/

namespace KacheDB

open Foundation

/-! ## Calls -/

/-- An object in a row of a search result. -/
inductive Item (F : Type) : Type where
  | none
  | str (s : String)
  | bytes (b : Bytes)
  | float (x : F)

/-- What the code uses of floating-point numbers. -/
structure Floats (F : Type) where
  /-- `1.0` -/
  one : F
  /-- `float(x)` of an object that is not a float. -/
  parse : Item F → Except Exc F
  /-- `str(x)` of a float. -/
  repr : F → String
  /-- `bool(x)` of a float. -/
  truthy : F → Bool

/-- Rational numbers in the place of floats; none is read from a text. -/
def ratFloats : Floats ℚ where
  one := 1
  parse := fun _ => .error (.valueError "could not convert to float")
  repr := toString
  truthy := fun x => x != 0

/-- Semantic vector search match result. -/
structure VectorMatch (F : Type) where
  id : Item F
  score : Item F
  payload : Item F
  parentKey : Item F

/-- A row of a search result. -/
inductive Row (F : Type) : Type where
  | tuple (items : List (Item F))
  | vectorMatch (m : VectorMatch F)

/-- The keyword arguments of `vadd`; one that may be left out is `none` then. -/
structure VAddArgs (F : Type) where
  index : String
  itemId : String
  vector : List F
  payload : String
  ex : Option ℤ
  tagMask : Option ℤ
  tags : Option (List String)
  parentKey : Option String

/-- The keyword arguments of `vsearch`; one that may be left out is `none` then. -/
structure VSearchArgs (F : Type) where
  index : String
  queryVector : List F
  topK : ℕ
  threshold : F
  filterMask : Option ℤ
  filterTags : Option (List String)

/-- What a cache calls: its embedder and the methods of its client. -/
inductive CacheCall (F : Type) : Type where
  | encode (text : String)
  | get (key : String)
  | set (key value : String) (ex : Option ℤ)
  | vadd (args : VAddArgs F)
  | vsearch (args : VSearchArgs F)
  | vdel (index itemId : String)

/-- The answer to a call. -/
@[reducible] def CacheCall.Answer {F : Type} : CacheCall F → Type
  | .encode _ => List F
  | .get _ => RespValue
  | .vsearch _ => List (Row F)
  | _ => Bool

/-- A method of a cache. -/
abbrev CacheScript (F α : Type) : Type :=
  Script (CacheCall F) CacheCall.Answer Exc α

namespace CacheScript

variable {F : Type}

/-- `embedder.encode(text)` -/
def encode (text : String) : CacheScript F (List F) :=
  Script.ask (CacheCall.encode text)

/-- `client.get(key)` -/
def clientGet (key : String) : CacheScript F RespValue :=
  Script.ask (CacheCall.get key)

/-- `client.set(key, value, ex=ex)` -/
def clientSet (key value : String) (ex : Option ℤ) : CacheScript F Bool :=
  Script.ask (CacheCall.set key value ex)

/-- `client.vadd(**args)` -/
def vadd (args : VAddArgs F) : CacheScript F Bool :=
  Script.ask (CacheCall.vadd args)

/-- `client.vsearch(**args)` -/
def vsearch (args : VSearchArgs F) : CacheScript F (List (Row F)) :=
  Script.ask (CacheCall.vsearch args)

/-- `client.vdel(index, item_id)` -/
def vdel (index itemId : String) : CacheScript F Bool :=
  Script.ask (CacheCall.vdel index itemId)

end CacheScript

/-! ## Python expressions -/

section Expressions

variable {F : Type}

/-- `b.decode("utf-8")` -/
def decodeText (b : Bytes) : Except Exc String :=
  match decodeUtf8 b with
  | some s => .ok s
  | none => .error .unicodeDecodeError

/-- `v.decode("utf-8") if isinstance(v, bytes) else str(v)` for a value that passes
`v is not None and isinstance(v, (bytes, str))`; the other values have no text. -/
def valueText : RespValue → Option (Except Exc String)
  | .bytes b => some (decodeText b)
  | .str s => some (.ok s)
  | _ => none

/-- `bool(x)` -/
def Item.truthy (floats : Floats F) : Item F → Bool
  | .none => false
  | .str s => s != ""
  | .bytes b => b != []
  | .float x => floats.truthy x

/-- `x.decode("utf-8") if isinstance(x, bytes) else str(x)` -/
def Item.text (floats : Floats F) : Item F → Except Exc String
  | .none => .ok "None"
  | .str s => .ok s
  | .bytes b => decodeText b
  | .float x => .ok (floats.repr x)

/-- `float(x)` -/
def Item.toFloat (floats : Floats F) : Item F → Except Exc F
  | .float x => .ok x
  | x => floats.parse x

/-- `x.decode("utf-8") if isinstance(x, bytes) else str(x or "")` -/
def Item.payloadText (floats : Floats F) (x : Item F) : Except Exc String :=
  match x with
  | .bytes b => decodeText b
  | x => if x.truthy floats then x.text floats else .ok ""

/-- `x.decode("utf-8") if isinstance(x, bytes) else (str(x) if x is not None else None)` -/
def Item.parentText (floats : Floats F) (x : Item F) : Except Exc (Option String) :=
  match x with
  | .none => .ok Option.none
  | x => (x.text floats).map Option.some

/-- `len(row)` -/
def Row.len : Row F → ℕ
  | .tuple items => items.length
  | .vectorMatch _ => 3

/-- `row[i]`; a `VectorMatch` has its parent key behind its last item. -/
def Row.item : Row F → ℕ → Except Exc (Item F)
  | .tuple items, i =>
    match items[i]? with
    | some x => .ok x
    | none => .error .indexError
  | .vectorMatch m, 0 => .ok m.id
  | .vectorMatch m, 1 => .ok m.score
  | .vectorMatch m, 2 => .ok m.payload
  | .vectorMatch m, 3 => .ok m.parentKey
  | .vectorMatch _, _ => .error .indexError

/-- `row[i] if len(row) > i else None` -/
def Row.itemOrNone (row : Row F) (i : ℕ) : Except Exc (Item F) :=
  if row.len > i then row.item i else .ok .none

/-- `getattr(row, "parent_key", None)` -/
def Row.parentAttr : Row F → Item F
  | .tuple _ => .none
  | .vectorMatch m => m.parentKey

/-- `getattr(row, "parent_key", None) or (row[3] if len(row) > 3 else None)` -/
def Row.rawParent (floats : Floats F) (row : Row F) : Except Exc (Item F) :=
  if row.parentAttr.truthy floats then .ok row.parentAttr else row.itemOrNone 3

/-- What a method reads from the best row. -/
structure MatchFields (F : Type) where
  keyStr : String
  score : F
  valStr : String
  parentK : Option String

/-- The fields of the best row, converted one after the other. -/
def Row.fields (floats : Floats F) (best : Row F) : Except Exc (MatchFields F) := do
  let keyStr ← (best.item 0).bind (Item.text floats)
  let score ← (best.item 1).bind (Item.toFloat floats)
  let valStr ← (best.itemOrNone 2).bind (Item.payloadText floats)
  let parentK ← (best.rawParent floats).bind (Item.parentText floats)
  return { keyStr, score, valStr, parentK }

/-- `bool(parent_k)` -/
def MatchFields.hasParent (m : MatchFields F) : Bool :=
  m.parentK.any (· != "")

/-- `try: m`, `except Exception: pass` -/
def exceptPass {α : Type} (m : CacheScript F (Option α)) : CacheScript F (Option α) :=
  m.tryCatch fun e => if e.isException then .pure none else .raise e

end Expressions

/-! ## The cache -/

/-- A successful semantic cache match. -/
structure SearchResult (F : Type) where
  key : String
  similarity : F
  value : String
  isExact : Bool := false
  parentKey : Option String := none
  chunk : Option String := none

/-- A semantic cache; its client and its embedder are what answers its calls. -/
structure SemanticCache (F : Type) where
  indexName : String := "default_semantic_cache"
  similarityThreshold : F
  ttlSeconds : Option ℤ := some 86400
  workspace : String := ""

/-- The arguments of `set`. -/
structure SetArgs where
  prompt : String
  response : String
  ttlSeconds : Option ℤ := none
  tagMask : ℤ := 0
  tags : Option (List String) := none
  parentKey : Option String := none
  storeExact : Bool := true
  deriving DecidableEq

/-- The arguments of `get`. -/
structure GetArgs (F : Type) where
  prompt : String
  threshold : Option F := none
  filterMask : ℤ := 0
  filterTags : Option (List String) := none
  exactFirst : Bool := true
  resolveParent : Bool := true

/-- `mask`, where it is positive: an argument that is only passed then. -/
def positiveMask (mask : ℤ) : Option ℤ :=
  if mask > 0 then some mask else none

namespace SemanticCache

open CacheScript

variable {F : Type}

/-- The key of the exact copy of a prompt without white space at its ends. -/
def docKey (c : SemanticCache F) (cleanPrompt : String) : String :=
  "doc:" ++ c.workspace ++ ":" ++ cleanPrompt

/-- `set` stores an exact copy. -/
def copies (c : SemanticCache F) (r : SetArgs) : Bool :=
  r.storeExact && c.workspace != ""

/-- The lifetime of what `set` stores. -/
def expiry (c : SemanticCache F) (r : SetArgs) : Option ℤ :=
  r.ttlSeconds.or c.ttlSeconds

/-- The exact copy that `set` stores. -/
def storeCopy (c : SemanticCache F) (r : SetArgs) : CacheScript F Unit :=
  if c.copies r then do
    let _ ← clientSet (c.docKey (strip r.prompt)) r.response (c.expiry r)
    pure ()
  else pure ()

/-- What `set` adds to the index. -/
def vaddArgs (c : SemanticCache F) (r : SetArgs) (vector : List F) : VAddArgs F where
  index := c.indexName
  itemId := r.prompt
  vector := vector
  payload := r.response
  ex := c.expiry r
  tagMask := positiveMask r.tagMask
  tags := r.tags
  parentKey := r.parentKey

/-- Store a prompt and its corresponding LLM response in the semantic cache. -/
def set (c : SemanticCache F) (r : SetArgs) : CacheScript F Bool := do
  c.storeCopy r
  let vector ← encode r.prompt
  vadd (c.vaddArgs r vector)

/-- The exact symbol / key shortcut of `get`. -/
def exactMatch (floats : Floats F) (c : SemanticCache F) (prompt : String) (exactFirst : Bool) :
    CacheScript F (Option (SearchResult F)) :=
  if exactFirst && c.workspace != "" then
    exceptPass do
      let exactVal ← clientGet (c.docKey (strip prompt))
      match valueText exactVal with
      | some text =>
        let valStr ← Script.lift text
        pure (some
          { key := strip prompt, similarity := floats.one, value := valStr, isExact := true })
      | none => pure none
  else pure none

/-- What `get` searches for. -/
def vsearchArgs (c : SemanticCache F) (r : GetArgs F) (vector : List F) : VSearchArgs F where
  index := c.indexName
  queryVector := vector
  topK := 1
  threshold := r.threshold.getD c.similarityThreshold
  filterMask := positiveMask r.filterMask
  filterTags := r.filterTags

/-- The search of `get`. -/
def search (c : SemanticCache F) (r : GetArgs F) : CacheScript F (List (Row F)) := do
  let vector ← encode r.prompt
  vsearch (c.vsearchArgs r vector)

/-- The parent document expansion of `get`. -/
def expandParent (m : MatchFields F) (resolveParent : Bool) :
    CacheScript F (Option (SearchResult F)) :=
  if resolveParent && m.hasParent then
    exceptPass do
      let parentRaw ← clientGet (m.parentK.getD "")
      match valueText parentRaw with
      | some text =>
        let parentContent ← Script.lift text
        pure (some
          { key := m.keyStr
            similarity := m.score
            value := parentContent
            parentKey := m.parentK
            chunk := some m.valStr })
      | none => pure none
  else pure none

/-- Steps 2 and 3 of `get`: vector retrieval and parent document expansion. -/
def vectorMatch (floats : Floats F) (c : SemanticCache F) (r : GetArgs F) :
    CacheScript F (Option (SearchResult F)) := do
  match ← c.search r with
  | [] => pure none
  | best :: _ =>
    let m ← Script.lift (best.fields floats)
    match ← expandParent m r.resolveParent with
    | some result => pure (some result)
    | none =>
      pure (some
        { key := m.keyStr
          similarity := m.score
          value := m.valStr
          parentKey := m.parentK
          chunk := if m.hasParent then some m.valStr else none })

/-- Search the cache for semantically equivalent prompts above the similarity threshold. -/
def get (floats : Floats F) (c : SemanticCache F) (r : GetArgs F) :
    CacheScript F (Option (SearchResult F)) := do
  match ← c.exactMatch floats r.prompt r.exactFirst with
  | some result => pure (some result)
  | none => c.vectorMatch floats r

/-- Delete a prompt entry from the semantic cache. -/
def delete (c : SemanticCache F) (prompt : String) : CacheScript F Bool :=
  vdel c.indexName prompt

end SemanticCache

end KacheDB
