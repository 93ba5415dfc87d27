import KacheDB.Semantic.Deletion

/-!
# How new an exact copy is

`set` writes the item of a prompt in any case, and its exact copy only if it is told to.  The copy
of an earlier call stays under its key, and `get` finds it before the item.  `neverStale_iff` says
after which calls of `set` every exact result is the response of the last one for its prompt.
-/

namespace KacheDB

open Foundation Backend

variable {F : Type}

/-- The last of these calls of `set` whose prompt is this text without white space at its ends. -/
def lastSet (sets : List SetArgs) (cleanPrompt : String) : Option SetArgs :=
  (sets.filter fun r => strip r.prompt = cleanPrompt).getLast?

/-- The server after these calls of `set`. -/
def afterSets (b : Backend F) (c : SemanticCache F) (foreign : String → Option Bytes)
    (sets : List SetArgs) : Server :=
  b.runOps c (sets.map .set) (.start foreign)

/-- Whatever exact result `get` returns is the response of the last call of `set` for its
prompt. -/
def NeverStale (b : Backend F) (floats : Floats F) (c : SemanticCache F)
    (foreign : String → Option Bytes) (sets : List SetArgs) : Prop :=
  ∀ (q : GetArgs F) (result : SearchResult F),
    ((c.get floats q).run (b.handle none) (afterSets b c foreign sets)).1 = .ok (some result) →
      result.isExact = true →
        ∃ r, lastSet sets (strip q.prompt) = some r ∧ result.value = r.response

/-- For every prompt, the last call has the response of the last one that made a copy; where none
did, it has the text that something else has written under the key, if there is one. -/
def CopiesUpToDate (c : SemanticCache F) (foreign : String → Option Bytes)
    (sets : List SetArgs) : Prop :=
  ∀ p : String,
    (∀ r, lastCopy c (sets.map .set) (strip p) = some r →
      ∃ r', lastSet sets (strip p) = some r' ∧ r'.response = r.response) ∧
    (lastCopy c (sets.map .set) (strip p) = none → ∀ value text,
      foreign (c.docKey (strip p)) = some value → decodeUtf8 value = some text →
        ∃ r', lastSet sets (strip p) = some r' ∧ r'.response = text)

section Results

variable {b : Backend F} {floats : Floats F} {c : SemanticCache F}
  {foreign : String → Option Bytes} {sets : List SetArgs}

/-- The text under an exact key after these calls. -/
lemma text_afterSets (b : Backend F) (c : SemanticCache F) (foreign : String → Option Bytes)
    (sets : List SetArgs) (x : String) :
    (afterSets b c foreign sets).text (c.docKey x) =
      (lastCopy c (sets.map .set) x).elim ((foreign (c.docKey x)).bind decodeUtf8)
        fun r => some r.response := by
  rw [afterSets, Server.text, kv_runOps_docKey]
  cases lastCopy c (sets.map .set) x with
  | none =>
    simp only [Server.start, Option.elim_none]
    cases foreign (c.docKey x) <;> rfl
  | some r => exact decodeUtf8_encodeUtf8 _

end Results

/-- **The exact shortcut is never stale exactly if the last call for each prompt agrees with its
copy.** -/
theorem neverStale_iff (b : Backend F) (floats : Floats F) (c : SemanticCache F)
    (hworkspace : c.workspace ≠ "") (foreign : String → Option Bytes) (sets : List SetArgs) :
    NeverStale b floats c foreign sets ↔ CopiesUpToDate c foreign sets := by
  have hflag : (c.workspace != "") = true := by simpa using hworkspace
  constructor
  · intro hnever p
    -- what is under the exact key is found with the default arguments
    have hfound (text : String)
        (htext : (afterSets b c foreign sets).text (c.docKey (strip p)) = some text) :
        ∃ r, lastSet sets (strip p) = some r ∧ r.response = text := by
      have hexact : exactText c (afterSets b c foreign sets) { prompt := p } = some text := by
        simp only [exactText, hflag, Bool.and_self, if_true, htext]
      obtain ⟨hget, htrue⟩ := (lookup_isExact_iff b floats c _ _ _).mpr ⟨text, hexact, rfl⟩
      obtain ⟨r, hr, hvalue⟩ := hnever _ _ (by rw [run_get, hget]) htrue
      exact ⟨r, hr, hvalue.symm⟩
    have htext := text_afterSets b c foreign sets (strip p)
    constructor
    · intro r hlast
      rw [hlast] at htext
      exact hfound _ htext
    · intro hlast value text hvalue hdecode
      rw [hlast, hvalue] at htext
      exact hfound text (htext.trans hdecode)
  · intro hcopies q result hget hexact
    rw [run_get] at hget
    obtain ⟨text, htext, rfl⟩ := (lookup_isExact_iff _ _ _ _ _ _).mp ⟨hget, hexact⟩
    rw [exactText] at htext
    split_ifs at htext
    rw [text_afterSets] at htext
    obtain ⟨hsome, hnone⟩ := hcopies q.prompt
    cases hlast : lastCopy c (sets.map .set) (strip q.prompt) with
    | some r =>
      rw [hlast] at htext
      obtain ⟨r', hr', hresponse⟩ := hsome r hlast
      exact ⟨r', hr', (Option.some.inj htext).symm.trans hresponse.symm⟩
    | none =>
      rw [hlast] at htext
      obtain ⟨value, hvalue, hdecode⟩ := Option.bind_eq_some_iff.mp htext
      obtain ⟨r', hr', hresponse⟩ := hnone hlast value text hvalue hdecode
      exact ⟨r', hr', hresponse.symm⟩

/-- A prompt whose response is replaced, and one whose new response is not copied. -/
def fourSets : List SetArgs :=
  [{ prompt := "q", response := "a" }, { prompt := "p", response := "b" },
    { prompt := " q", response := "c" }, { prompt := "p", response := "d", storeExact := false }]

/-- These calls, on a server where something else has written under the key of a third prompt. -/
theorem neverStale_iff_fourSets :
    ("w" ≠ "") ∧
      (NeverStale emptySearch ratFloats { similarityThreshold := 0, workspace := "w" }
          (fun key => if key = "doc:w:r" then some [101] else none) fourSets ↔
        CopiesUpToDate { similarityThreshold := (0 : ℚ), workspace := "w" }
          (fun key => if key = "doc:w:r" then some [101] else none) fourSets) :=
  ⟨by decide, neverStale_iff emptySearch ratFloats
    { similarityThreshold := 0, workspace := "w" } (by decide) _ fourSets⟩

/-- A response that is replaced without a copy is found all the same. -/
theorem not_neverStale :
    ¬ NeverStale emptySearch ratFloats { similarityThreshold := 0, workspace := "w" }
      (fun _ => none) [{ prompt := "q", response := "old" },
        { prompt := "q", response := "new", storeExact := false }] := by
  intro hnever
  obtain ⟨r, hlast, hvalue⟩ := hnever { prompt := "q" }
    { key := "q", similarity := 1, value := "old", isExact := true } rfl rfl
  have hr : r.response = "new" := by
    obtain rfl := Option.some.inj hlast
    rfl
  exact absurd (hvalue.trans hr) (by decide)

end KacheDB
