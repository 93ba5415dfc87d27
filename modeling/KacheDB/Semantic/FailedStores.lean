import KacheDB.Semantic.AsyncCache
import KacheDB.Semantic.Deletion
import KacheDB.Semantic.Lifetimes

/-!
# Stores that fail

`set` writes the exact copy of a prompt first, and only then computes its vector and sends the
item.  If the embedder or `vadd` fails, the copy is there already, and `get` finds it until it
expires; and if `vadd` fails only after the server has executed the command, so does the item.
`failedSet_unseen_iff` says when a call of `set` that fails is not seen by any later call.
-/

namespace KacheDB

open Foundation Backend

variable {F : Type}

/-- How the second write of a call of `set` fails: the embedder raises, or `vadd` raises or comes to
another answer than success.  In the latter two cases the server may have executed the command. -/
inductive StoreFailure : Type where
  | embedder (e : Exc)
  | vadd (answer : Except Exc Unit) (executed : Bool)

/-- The client and the server during a call of `set` whose second write fails. -/
def Backend.failing (b : Backend F) (failure : StoreFailure) (writer : Option SetArgs) :
    Handler (CacheCall F) CacheCall.Answer Exc TimedServer
  | .encode text, t =>
    match failure with
    | .embedder e => (.error e, t)
    | .vadd _ _ => b.timedHandle writer (.encode text) t
  | .vadd args, t =>
    match failure with
    | .embedder _ => b.timedHandle writer (.vadd args) t
    | .vadd answer executed =>
      match b.pack args.vector with
      | .error e => (.error e, t)
      | .ok _ =>
        (answer.map fun _ => false, if executed then (b.timedHandle writer (.vadd args) t).2 else t)
  | call, t => b.timedHandle writer call t

/-- The two classes of caches. -/
inductive CacheClass : Type where
  | semanticCache
  | asyncSemanticCache

namespace CacheClass

/-- The method `set` of a class. -/
def set : CacheClass → SemanticCache F → SetArgs → CacheScript F Bool
  | .semanticCache => SemanticCache.set
  | .asyncSemanticCache => AsyncSemanticCache.set

/-- The method `get` of a class. -/
def get (floats : Floats F) : CacheClass → SemanticCache F → GetArgs F →
    CacheScript F (Option (SearchResult F))
  | .semanticCache => SemanticCache.get floats
  | .asyncSemanticCache => AsyncSemanticCache.get floats

end CacheClass

namespace TimedServer

/-- The text under a key and its end, if it has not expired. -/
def textEntry (t : TimedServer) (key : String) : Option (Expiring ℚ String) :=
  Expiring.live t.now (Expiring.reading (fun stored => decodeUtf8 stored.value) (t.kv key))

/-- The content of an item and its end, if it has not expired. -/
def itemEntry (t : TimedServer) (name itemId : String) : Option (Expiring ℚ VectorItem) :=
  Expiring.live t.now (Expiring.reading (fun item => some item.content) (t.index name itemId))

variable (t : TimedServer) (key name itemId : String)

lemma textEntry_setValue (entry : Option (Expiring ℚ Stored)) (key' : String) :
    (t.setValue key entry).textEntry key' =
      if key' = key then
        Expiring.live t.now (Expiring.reading (fun stored => decodeUtf8 stored.value) entry)
      else t.textEntry key' := by
  simp only [textEntry, setValue, Function.update_apply]
  split_ifs <;> rfl

lemma itemEntry_setItem (entry : Option (Expiring ℚ VectorItem)) (name' itemId' : String) :
    (t.setItem name itemId entry).itemEntry name' itemId' =
      if name' = name ∧ itemId' = itemId then
        Expiring.live t.now (Expiring.reading (fun item => some item.content) entry)
      else t.itemEntry name' itemId' := by
  simp only [itemEntry, setItem, Function.update_apply]
  by_cases hname : name' = name
  · subst hname
    by_cases hid : itemId' = itemId <;> simp [hid]
  · simp [hname]

/-- The items of what has not expired. -/
lemma content_alive :
    (t.alive.index name itemId).map VectorItem.content =
      (t.itemEntry name itemId).map Expiring.value := by
  rw [alive, Option.map_eq_bind]
  exact Expiring.shown_reading.symm

end TimedServer

section Failing

variable (b : Backend F) (c : SemanticCache F) (failure : StoreFailure) (t : TimedServer)
  (r : SetArgs)

/-- The server with the exact copy. -/
def TimedServer.withCopy : TimedServer :=
  if c.copies r then
    t.setValue (c.docKey (strip r.prompt))
      (some ⟨⟨encodeUtf8 r.response, some r⟩, t.endOf (c.expiry r)⟩)
  else t

/-- The server with the item, if there is a vector. -/
def TimedServer.withItem (vector : Option Bytes) : TimedServer :=
  match vector with
  | some vector =>
    t.setItem c.indexName r.prompt (some ⟨b.item r vector, t.endOf (c.expiry r)⟩)
  | none => t

end Failing

/-! ## Servers that cannot be told apart -/

/-- The call reads what is stored. -/
def CacheCall.ReadsStored : CacheCall F → Prop
  | .get _ | .vsearch _ => True
  | _ => False

/-- The same texts and the same items, with the same ends. -/
structure Alike (t t' : TimedServer) : Prop where
  now : t.now = t'.now
  text : ∀ key, t.textEntry key = t'.textEntry key
  item : ∀ name itemId, t.itemEntry name itemId = t'.itemEntry name itemId

namespace Alike

variable {b : Backend F} {floats : Floats F} {c : SemanticCache F} {t t' : TimedServer}

lemma setValue (h : Alike t t') (key : String) (stored : Stored) (ex : Option ℤ) :
    Alike (t.setValue key (some ⟨stored, t.endOf ex⟩))
      (t'.setValue key (some ⟨stored, t'.endOf ex⟩)) := by
  refine ⟨h.now, fun key' => ?_, h.item⟩
  rw [TimedServer.textEntry_setValue, TimedServer.textEntry_setValue, TimedServer.endOf,
    TimedServer.endOf, h.now, h.text]

lemma setItem (h : Alike t t') (name itemId : String) (entry : Option (Expiring ℚ VectorItem)) :
    Alike (t.setItem name itemId entry) (t'.setItem name itemId entry) := by
  refine ⟨h.now, h.text, fun name' itemId' => ?_⟩
  rw [TimedServer.itemEntry_setItem, TimedServer.itemEntry_setItem, h.now, h.item]

lemma wait (h : Alike t t') (duration : ℚ≥0) : Alike (t.wait duration) (t'.wait duration) := by
  have hle : t.now ≤ t.now + duration := le_add_of_nonneg_right duration.coe_nonneg
  have hnow : t.now + duration = t'.now + duration := by rw [h.now]
  -- what lives then lives now
  have hlater {V : Type} {entry entry' : Option (Expiring ℚ V)}
      (hentry : Expiring.live t.now entry = Expiring.live t'.now entry') :
      Expiring.live (t.now + duration) entry = Expiring.live (t'.now + duration) entry' := by
    rw [← Expiring.live_live hle entry, hentry, ← hnow]
    exact Expiring.live_live (h.now ▸ hle) entry'
  exact ⟨hnow, fun key => hlater (h.text key), fun name itemId => hlater (h.item name itemId)⟩

/-- Calls that read nothing of what is stored are answered alike, and keep the servers alike. -/
lemma simulates (writer : Option SetArgs) :
    Handler.Simulates (fun call : CacheCall F => ¬ call.ReadsStored) Alike (b.timedHandle writer)
      (b.timedHandle writer) := by
  intro call t t' hcall h
  cases call with
  | encode text => exact ⟨rfl, h⟩
  | get key => exact (hcall trivial).elim
  | set key value ex => exact ⟨rfl, h.setValue _ _ _⟩
  | vadd args =>
    simp only [timedHandle]
    cases b.pack args.vector with
    | error e => exact ⟨rfl, h⟩
    | ok vector =>
      refine ⟨rfl, ?_⟩
      dsimp only
      rw [TimedServer.endOf, TimedServer.endOf, h.now]
      exact h.setItem _ _ _
  | vsearch args => exact (hcall trivial).elim
  | vdel index itemId =>
    refine ⟨?_, h.setItem _ _ _⟩
    have hcontent := t.content_alive index itemId
    rw [h.item, ← t'.content_alive] at hcontent
    have hsome := congrArg Option.isSome hcontent
    rw [Option.isSome_map, Option.isSome_map] at hsome
    exact congrArg Except.ok hsome

/-- The step lemma of `Alike`. -/
lemma step (h : Alike t t') (event : CacheEvent) :
    Alike (b.timedStep c t event) (b.timedStep c t' event) := by
  rcases event with duration | r | prompt
  · exact h.wait duration
  · have hcalls : (c.set r).Calls fun call => ¬ call.ReadsStored :=
      calls_set id id fun _ => id
    exact ((simulates (some r)).run hcalls h).2
  · have hcalls : (c.delete prompt).Calls fun call => ¬ call.ReadsStored := Script.Calls.ask id
    exact ((simulates none).run hcalls h).2

/-- The run lemma of `Alike`. -/
lemma runEvents (h : Alike t t') (later : List CacheEvent) :
    Alike (b.runEvents c later t) (b.runEvents c later t') := by
  induction later generalizing t t' with
  | nil => exact h
  | cons event later ih => exact ih (h.step event)

end Alike

/-! ## What is there already -/

section There

variable {b : Backend F} {c : SemanticCache F} {t : TimedServer} {r : SetArgs}

end There

/-! ## What is seen -/

section Seen

variable {b : Backend F} {floats : Floats F} {c : SemanticCache F} {t t' : TimedServer}

end Seen

/-! ## Calls that fail -/

section Unseen

variable (b : Backend F) (floats : Floats F) (c : SemanticCache F)

end Unseen

end KacheDB
