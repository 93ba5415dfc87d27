import KacheDB.Foundation.Json
import KacheDB.Foundation.LastWrite
import KacheDB.Integrations.KeyValue

/-!
# The LangChain cache

`KacheDBCache` keeps the generations for a prompt and a model under the hash of the two texts
with two colons between them.  On a server that is a map it should itself be a map from pairs of
texts to lists of generations.

`lookupAfter_eq_iff` says when it is.  The hash may be taken to be injective, but the text that
is hashed does not determine the pair.

`Generation` is a class of `langchain_core`; what it makes of the object that it is given is a
parameter.
-/

namespace KacheDB

open Foundation

/-! ## Generations -/

/-- `item.get("text", "")`; of two fields with one name the last one counts. -/
def textField : Json → Except Exc Json
  | .obj fields => .ok (((fields.filter fun field => field.1 == "text").getLast?.map Prod.snd).getD
      (.str ""))
  | _ => .error .attributeError

/-- The text of `Generation(text=x)`, or what it raises. -/
abbrev NewGeneration : Type :=
  Json → Except Exc String

section Generations

variable (generation : NewGeneration)

/-- `[Generation(text=item.get("text", "")) for item in items]` -/
def readItems : List Json → Except Exc (List String)
  | [] => .ok []
  | item :: items => do
    let text ← (textField item).bind generation
    let texts ← readItems items
    return text :: texts

/-- What `lookup` makes of the text that it has found. -/
def readGenerations (valStr : String) : Except Exc (Option (List String)) :=
  let whole := (generation (.str valStr)).map fun text => some [text]
  match Json.loads valStr with
  | none => whole
  | some (.arr items) =>
    match readItems generation items with
    | .ok texts => .ok (some texts)
    | .error e => if e.isException then whole else .error e
  | some _ => .ok none

/-- `json.dumps([{"text": g.text} for g in return_val])` -/
def writeGenerations (texts : List String) : String :=
  Json.dumps (.arr (texts.map fun text => .obj [("text", .str text)]))

variable {generation}

/-- What was written is read. -/
theorem readGenerations_writeGenerations (hgen : ∀ text, generation (.str text) = .ok text)
    (texts : List String) : readGenerations generation (writeGenerations texts) =
      .ok (some texts) := by
  have hnumberless : ∀ texts : List String, Json.numberlessItems
      (texts.map fun text => .obj [("text", .str text)]) = true := by
    intro texts
    induction texts with
    | nil => rfl
    | cons text texts ih =>
      rw [List.map_cons, Json.numberlessItems, ih]
      rfl
  have hitems : readItems generation (texts.map fun text => .obj [("text", .str text)]) =
      .ok texts := by
    induction texts with
    | nil => rfl
    | cons text texts ih =>
      rw [List.map_cons, readItems, ih]
      simp [textField, Except.bind, hgen, Bind.bind, Pure.pure, Except.pure]
  have hwhole : Json.numberless (.arr (texts.map fun text => .obj [("text", .str text)])) =
      true := by
    rw [Json.numberless]
    exact hnumberless texts
  rw [readGenerations, writeGenerations, Json.loads_dumps hwhole]
  simp only [hitems]

end Generations

/-! ## The cache -/

/-- `hashlib.sha256(b).digest()` as the text that `hexdigest()` gives. -/
def hexdigest (digest : Bytes) : String :=
  .ofList (digest.flatMap fun b => [Nat.digitChar (b.toNat / 16), Nat.digitChar (b.toNat % 16)])

/-- A cache with its client; the client is what answers its calls. -/
structure KacheDBCache where
  ttlSeconds : Option ℤ := some 86400
  cacheNamespace : String := "langchain:exact"

/-- A prompt and a model. -/
structure CacheKey where
  prompt : String
  llmString : String
  deriving DecidableEq

/-- The text that is hashed. -/
def CacheKey.joined (k : CacheKey) : String :=
  k.prompt ++ "::" ++ k.llmString

namespace KacheDBCache

variable (sha256 : Bytes → Bytes) (texts : Texts) (generation : NewGeneration)
  (cache : KacheDBCache)

/-- The key of a prompt and a model. -/
def key (k : CacheKey) : String :=
  cache.cacheNamespace ++ ":" ++ hexdigest (sha256 (encodeUtf8 k.joined))

/-- Look up value based on prompt and llm_string. -/
def lookup (k : CacheKey) : ClientScript (Option (List String)) := do
  match ← KacheClient.get (.str (cache.key sha256 k)) with
  | .none => pure none
  | val =>
    let valStr ← Script.lift (val.decodedText texts)
    Script.lift (readGenerations generation valStr)

/-- Update cache value based on prompt and llm_string. -/
def update (k : CacheKey) (returnVal : List String) : ClientScript Unit := do
  let _ ← KacheClient.set (.str (cache.key sha256 k)) (.str (writeGenerations returnVal))
    cache.ttlSeconds none
  pure ()

end KacheDBCache

/-! ## Keys -/

/-- Digests with the same text are the same. -/
lemma hexdigest_injective : Function.Injective hexdigest := by
  intro a b h
  have hchars := String.ofList_injective h
  induction a generalizing b with
  | nil =>
    cases b with
    | nil => rfl
    | cons y b => cases hchars
  | cons x a ih =>
    cases b with
    | nil => cases hchars
    | cons y b =>
      rw [List.flatMap_cons, List.flatMap_cons] at hchars
      obtain ⟨hhead, htail⟩ := List.append_inj hchars rfl
      obtain ⟨hhigh, hlow⟩ : Nat.digitChar (x.toNat / 16) = Nat.digitChar (y.toNat / 16) ∧
          Nat.digitChar (x.toNat % 16) = Nat.digitChar (y.toNat % 16) := by simpa using hhead
      have hx := x.toNat_lt
      have hy := y.toNat_lt
      have hdigit {m n : ℕ} (hm : m < 16) (hn : n < 16)
          (h : Nat.digitChar m = Nat.digitChar n) : m = n := by
        have hvalue := Json.hexValue_digitChar m hm
        rw [h, Json.hexValue_digitChar n hn] at hvalue
        exact (Option.some.inj hvalue).symm
      have h₁ := hdigit (by omega) (by omega) hhigh
      have h₂ := hdigit (by omega) (by omega) hlow
      have hxy : x = y := UInt8.toNat_inj.mp (by omega)
      rw [hxy, ih (String.ofList_inj.mpr htail) htail]

namespace KacheDBCache

variable {sha256 : Bytes → Bytes} {texts : Texts} {generation : NewGeneration}
  {cache : KacheDBCache} {d : Bool}

/-- Two pairs have the same key exactly if the joined texts are the same. -/
lemma key_eq_iff (hsha : Function.Injective sha256) {k k' : CacheKey} :
    cache.key sha256 k = cache.key sha256 k' ↔ k.joined = k'.joined := by
  constructor
  · intro h
    have hchars := congrArg String.toList h
    simp only [key, String.toList_append] at hchars
    exact Store.encodeUtf8_injective (hsha (hexdigest_injective
      (String.toList_inj.mp (List.append_cancel_left hchars))))
  · intro h
    rw [key, key, h]

end KacheDBCache

/-! ## Histories -/

/-- An update of the cache. -/
structure CacheUpdate where
  key : CacheKey
  returnVal : List String

/-- What these updates are meant to write. -/
def cacheWrites (updates : List CacheUpdate) : List (Write CacheKey (List String)) :=
  updates.map fun u => ⟨u.key, some u.returnVal⟩

namespace KacheDBCache

variable (sha256 : Bytes → Bytes) (texts : Texts) (generation : NewGeneration)
  (cache : KacheDBCache) (d : Bool)

/-- The server after these updates. -/
def runUpdates (updates : List CacheUpdate) (s : Store) : Store :=
  updates.foldl
    (fun s u => ((cache.update sha256 u.key u.returnVal).run (Store.handle d) s).2) s

/-- What `lookup` returns after these updates on a server that was empty. -/
def lookupAfter (updates : List CacheUpdate) (k : CacheKey) : Except Exc (Option (List String)) :=
  ((cache.lookup sha256 texts generation k).run (Store.handle d)
    (cache.runUpdates sha256 d updates fun _ => none)).1

/-- The bytes that are stored for generations. -/
def storedGenerations (texts : List String) : Bytes :=
  encodeUtf8 (writeGenerations texts)

variable {sha256 texts generation cache d}

/-- The updates write what they are meant to write, under the keys of the pairs. -/
theorem text_runUpdates (updates : List CacheUpdate) :
    Store.text (cache.runUpdates sha256 d updates fun _ => none) =
      storeAfter (cache.key sha256) (fun _ => none)
        ((cacheWrites updates).map (Write.map storedGenerations)) := by
  induction updates using List.reverseRecOn with
  | nil => rfl
  | append_singleton updates u ih =>
    rw [cacheWrites, List.map_append, List.map_append, storeAfter_append, ← cacheWrites, ← ih,
      runUpdates, List.foldl_concat, ← runUpdates]
    funext key'
    simp only [update, Script.bind_eq, Script.run_bind, Store.run_set, Script.pure_eq,
      Script.run_pure]
    rw [Store.text_update]
    rfl

/-- `lookup` returns the generations of the last update under the key of the pair. -/
theorem lookupAfter_eq (hgen : ∀ text, generation (.str text) = .ok text)
    (updates : List CacheUpdate) (k : CacheKey) :
    cache.lookupAfter sha256 texts generation d updates k =
      .ok (valueUnder (cache.key sha256) (cacheWrites updates) k) := by
  have hvalue : (cache.runUpdates sha256 d updates fun _ => none).text (cache.key sha256 k) =
      (valueUnder (cache.key sha256) (cacheWrites updates) k).map storedGenerations := by
    rw [text_runUpdates, storeAfter_text, valueUnder_map]
  unfold lookupAfter lookup
  rw [Script.bind_eq, Script.run_bind, Store.run_get, hvalue]
  cases valueUnder (cache.key sha256) (cacheWrites updates) k with
  | none => cases d <;> rfl
  | some returnVal =>
    have hdec := decodeUtf8_encodeUtf8 (writeGenerations returnVal)
    have hread := readGenerations_writeGenerations hgen returnVal
    cases d <;>
      simp [Store.reply, storedGenerations, decodeResponse, hdec, RespValue.decodedText,
        decodeText, RespValue.strOr, Script.bind_eq, Script.run_bind, hread]

/-- **When the cache is a map.**  A lookup returns the generations of the last update that was
made with exactly this prompt and this model, and nothing if there was none, if and only if the
last update with the same joined text was made with exactly this prompt and this model, or leaves
the generations that the last one with this pair leaves. -/
theorem lookupAfter_eq_iff (hsha : Function.Injective sha256)
    (hgen : ∀ text, generation (.str text) = .ok text) (cache : KacheDBCache)
    (updates : List CacheUpdate) (k : CacheKey) :
    cache.lookupAfter sha256 texts generation d updates k =
        .ok (valueAt (cacheWrites updates) k) ↔
      OwnText CacheKey.joined (cacheWrites updates) k := by
  have hkey : valueUnder (cache.key sha256) (cacheWrites updates) k =
      valueUnder CacheKey.joined (cacheWrites updates) k := by
    simp only [valueUnder, key_eq_iff hsha]
  rw [lookupAfter_eq hgen, Except.ok.injEq, hkey, valueUnder_eq_valueAt_iff]

/-- A class of generations that takes texts only. -/
def textGeneration : NewGeneration
  | .str text => .ok text
  | _ => .error (.valueError "Input should be a valid string")

/-- The digest of `a::b::c`, and different other digests for other texts. -/
def digestABC (b : Bytes) : Bytes :=
  if b = encodeUtf8 "a::b::c" then
    [62, 255, 186, 108, 105, 80, 240, 133, 140, 243, 230, 129, 179, 56, 100, 69, 195, 188, 60, 215,
      107, 255, 71, 154, 125, 128, 38, 87, 248, 191, 166, 101]
  else 0 :: b

lemma digestABC_injective : Function.Injective digestABC := by
  intro b b' h
  unfold digestABC at h
  split at h <;> split at h
  · rw [‹b = _›, ‹b' = _›]
  · cases h
  · cases h
  · exact List.tail_eq_of_cons_eq h

/-- One update. -/
theorem lookupAfter_eq_iff_update :
    ({} : KacheDBCache).lookupAfter digestABC .plain textGeneration
        false [⟨⟨"a::b", "c"⟩, ["hello"]⟩] ⟨"a::b", "c"⟩ =
        .ok (valueAt (cacheWrites [⟨⟨"a::b", "c"⟩, ["hello"]⟩]) ⟨"a::b", "c"⟩) ↔
      OwnText CacheKey.joined (cacheWrites [⟨⟨"a::b", "c"⟩, ["hello"]⟩]) ⟨"a::b", "c"⟩ :=
  lookupAfter_eq_iff digestABC_injective (fun _ => rfl) _ _ _

/-- What was stored for the prompt `a::b` and the model `c` is returned for the prompt `a` and
the model `b::c`. -/
theorem lookupAfter_ne :
    ({} : KacheDBCache).lookupAfter digestABC .plain textGeneration
        false [⟨⟨"a::b", "c"⟩, ["hello"]⟩] ⟨"a", "b::c"⟩ ≠
      .ok (valueAt (cacheWrites [⟨⟨"a::b", "c"⟩, ["hello"]⟩]) ⟨"a", "b::c"⟩) := by
  have hat : valueAt (cacheWrites [⟨⟨"a::b", "c"⟩, ["hello"]⟩]) ⟨"a", "b::c"⟩ = none := by decide
  have hkey : valueUnder (({} : KacheDBCache).key digestABC)
      (cacheWrites [⟨⟨"a::b", "c"⟩, ["hello"]⟩]) ⟨"a", "b::c"⟩ = some ["hello"] := by
    have hsame : ({} : KacheDBCache).key digestABC ⟨"a::b", "c"⟩ =
        ({} : KacheDBCache).key digestABC ⟨"a", "b::c"⟩ :=
      (key_eq_iff digestABC_injective).mpr (by decide)
    simp [valueUnder, lastWrite, cacheWrites, hsame]
  rw [lookupAfter_eq (fun _ => rfl), hkey, hat]
  simp

end KacheDBCache

end KacheDB
