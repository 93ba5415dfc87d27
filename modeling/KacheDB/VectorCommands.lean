import KacheDB.Integrations.KeyValue
import KacheDB.PipelineMethods
import KacheDB.Resp.Commands
import KacheDB.Tags

/-!
# The vector commands of the client

The methods of `KacheClient` for the items of vector indexes, which are scripts over `_execute` like
its other methods.  The methods of `AsyncKacheClient` have the same texts.

A vector is a sequence of numbers or the bytes of such a sequence.  What the code takes from
elsewhere to write and to read numbers is a `VectorCodec`.

`run_vsearchBatch` compares a batch of searches with one search after the other, and
`vaddBatch_wire_eq_iff` says what the wire form of a batch of additions determines.
-/

namespace KacheDB

open Foundation

/-! ## Numbers and vectors -/

/-- What the code uses of numbers. -/
structure VectorCodec (F : Type) where
  /-- `struct.pack(f"<{len(vector)}f", *vector)` -/
  pack : List F → Except Exc Bytes
  /-- `0.0` -/
  zero : F
  /-- `float(s)` of a text. -/
  parse : String → Except Exc F
  /-- `float(n)` of an integer. -/
  ofInt : ℤ → Except Exc F
  /-- `str(x)` of a number. -/
  repr : F → String

/-- A vector as an argument: numbers or bytes. -/
inductive VectorArg (F : Type) : Type where
  | floats (xs : List F)
  | bytes (b : Bytes)

section Reading

variable {F : Type} (codec : VectorCodec F) (texts : Texts)

/-- The bytes of a vector. -/
def VectorArg.packed : VectorArg F → Except Exc Bytes
  | .floats xs => codec.pack xs
  | .bytes b => .ok b

/-- The number of coordinates that is sent with a vector. -/
def VectorArg.dim : VectorArg F → ℕ
  | .floats xs => xs.length
  | .bytes b => b.length / 4

/-- `x if isinstance(x, (str, bytes)) else str(x)` -/
def RespValue.idItem : RespValue → Item F
  | .str s => .str s
  | .bytes b => .bytes b
  | v => .str (v.strOr texts "None")

/-- `x if isinstance(x, (str, bytes)) or x is None else str(x)` -/
def RespValue.payloadItem : RespValue → Item F
  | .none => .none
  | v => v.idItem texts

/-- A number within `except Exception: score = 0.0`. -/
def VectorCodec.orZero (x : Except Exc F) : F :=
  x.toOption.getD codec.zero

/-- The score of a row that `vsearch` reads. -/
def RespValue.score : RespValue → F
  | .bytes b => codec.orZero ((decodeText b).bind codec.parse)
  | .int n => codec.orZero (codec.ofInt n)
  | .str s => codec.orZero (codec.parse s)
  | _ => codec.zero

/-- The score of a row that `vsearch_batch` reads. -/
def RespValue.batchScore : RespValue → F
  | .bytes b => codec.orZero ((decodeText b).bind codec.parse)
  | v => codec.orZero (codec.parse (v.strOr texts "None"))

/-- The match that `vsearch` makes of a row. -/
def RespValue.vectorMatch : RespValue → Option (VectorMatch F)
  | .list (rawId :: rawScore :: rest) => some
    { id := rawId.idItem texts
      score := .float (rawScore.score codec)
      payload := (rest[0]?.getD RespValue.none).payloadItem texts
      parentKey := (rest[1]?.getD RespValue.none).payloadItem texts }
  | _ => Option.none

/-- The tuple that `vsearch_batch` makes of a row. -/
def RespValue.batchRow : RespValue → Option (Item F × Item F × Item F)
  | .list (rawId :: rawScore :: rest) =>
    some (rawId.idItem texts, .float (rawScore.batchScore codec texts),
      (rest[0]?.getD RespValue.none).payloadItem texts)
  | _ => Option.none

/-- The dictionary of a list of keys and values in turn; a key without a value is left out. -/
def statsDict (value : RespValue → RespValue) :
    List RespValue → Dict String RespValue → Except Exc (Dict String RespValue)
  | rawK :: v :: rest, stats => do
    let k ← rawK.decodedText texts
    statsDict value rest (stats.set k (value v))
  | _, stats => .ok stats

/-- A value of which bytes are decoded if they are UTF-8. -/
def RespValue.suppressDecode : RespValue → RespValue
  | .bytes b => ((decodeUtf8 b).map .str).getD (.bytes b)
  | v => v

end Reading

/-! ## Keyword arguments -/

/-- The keyword arguments of `vadd`. -/
structure VAddOptions where
  payload : Option Arg := none
  ex : Option ℤ := none
  tagMask : ℤ := 0
  tags : Option (List String) := none
  parentKey : Option Arg := none

/-- The keyword arguments of `vsearch`. -/
structure VSearchOptions (F : Type) where
  topK : ℤ := 1
  threshold : F
  filterMask : ℤ := 0
  filterTags : Option (List String) := none

/-! ## Arguments of commands -/

/-- An option of a command, if it is given. -/
def optionArgs (name : String) (value : Option Arg) : List Arg :=
  value.elim [] fun value => [.str name, value]

/-- The text of an integer that may be given. -/
def intArg (n : Option ℤ) : Option Arg :=
  n.map fun n => .str (toString n)

/-- A mask, where it is positive. -/
def maskArg (mask : ℕ) : Option Arg :=
  if mask > 0 then some (.str (toString mask)) else none

/-- The arguments of `VADD`. -/
def vaddCommand (enc : TagEncoding) (index itemId : Arg) (dim : ℕ) (vectorBytes : Bytes)
    (o : VAddOptions) : List Arg :=
  [.str "VADD", index, itemId, .str (toString dim), .bytes vectorBytes] ++
    optionArgs "PAYLOAD" o.payload ++ optionArgs "EX" (intArg o.ex) ++
    optionArgs "TAGS" (maskArg (tagsToBitmask enc o.tags o.tagMask)) ++
    optionArgs "PARENT" o.parentKey

/-- The arguments of `VSEARCH`. -/
def vsearchCommand {F : Type} (codec : VectorCodec F) (enc : TagEncoding) (index : Arg)
    (queryBytes : Bytes) (o : VSearchOptions F) : List Arg :=
  [.str "VSEARCH", index, .bytes queryBytes, .str "TOPK", .str (toString o.topK),
    .str "THRESHOLD", .str (codec.repr o.threshold)] ++
    optionArgs "FILTER" (maskArg (tagsToBitmask enc o.filterTags o.filterMask))

/-- The arguments for the items of `VADD_BATCH`. -/
def batchArgs {F : Type} (codec : VectorCodec F) (ex : Option ℤ) :
    List (Arg × VectorArg F × Option Arg) → Except Exc (List Arg)
  | [] => .ok []
  | (itemId, vector, payload) :: rest => do
    let vectorBytes ← vector.packed codec
    let args ← batchArgs codec ex rest
    return [itemId, .bytes vectorBytes, payload.getD (.str "-")] ++
      optionArgs "EX" (intArg ex) ++ args

/-- The bytes of the vectors of `VSEARCH_BATCH`. -/
def packedAll {F : Type} (codec : VectorCodec F) : List (VectorArg F) → Except Exc (List Bytes)
  | [] => .ok []
  | q :: queries => do
    let queryBytes ← q.packed codec
    let more ← packedAll codec queries
    return queryBytes :: more

/-- The arguments of `VSEARCH_BATCH`. -/
def vsearchBatchCommand {F : Type} (codec : VectorCodec F) (index : Arg) (queries : List Bytes)
    (topK : ℤ) (threshold : F) : List Arg :=
  [.str "VSEARCH_BATCH", index] ++ queries.map .bytes ++
    [.str "TOPK", .str (toString topK), .str "THRESHOLD", .str (codec.repr threshold)]

/-! ## The methods -/

namespace KacheClient

variable {F : Type} (codec : VectorCodec F) (enc : TagEncoding) (texts : Texts)

/-- Store a vector embedding in a named vector index. -/
def vadd (index itemId : Arg) (vector : VectorArg F) (o : VAddOptions) : ClientScript Bool := do
  let vectorBytes ← Script.lift (vector.packed codec)
  (command (vaddCommand enc index itemId vector.dim vectorBytes o)).map fun result =>
    result.eqInt 1 || result.eqText "OK"

/-- Search for nearest semantic vectors in a named index. -/
def vsearch (index : Arg) (queryVector : VectorArg F) (o : VSearchOptions F) :
    ClientScript (List (VectorMatch F)) := do
  let queryBytes ← Script.lift (queryVector.packed codec)
  (command (vsearchCommand codec enc index queryBytes o)).map fun rawResults =>
    rawResults.listOrNil.filterMap (RespValue.vectorMatch codec texts)

/-- Delete a vector from a named index. -/
def vdel (index itemId : Arg) : ClientScript Bool :=
  (command [.str "VDEL", index, itemId]).map (·.eqInt 1)

/-- Add multiple vector items in a single batch command; no command is sent for none. -/
def vaddBatch (index : Arg) (items : List (Arg × VectorArg F × Option Arg)) (ex : Option ℤ) :
    ClientScript ℤ :=
  if items.isEmpty then .pure 0
  else do
    let args ← Script.lift (batchArgs codec ex items)
    (command ([.str "VADD_BATCH", index] ++ args)).map (·.intOr 0)

/-- Search multiple query vectors in a single batch command; no command is sent for none. -/
def vsearchBatch (index : Arg) (queryVectors : List (VectorArg F)) (topK : ℤ) (threshold : F) :
    ClientScript (List (List (Item F × Item F × Item F))) :=
  if queryVectors.isEmpty then .pure []
  else do
    let queries ← Script.lift (packedAll codec queryVectors)
    (command (vsearchBatchCommand codec index queries topK threshold)).map fun rawBatch =>
      rawBatch.listOrNil.map fun rawResults =>
        rawResults.listOrNil.filterMap (RespValue.batchRow codec texts)

/-- Get statistics for a named vector index. -/
def vstats (index : Arg) : ClientScript (Option (Dict String RespValue)) := do
  match ← command [.str "VSTATS", index] with
  | .list raw => Script.lift ((statsDict texts id raw .empty).map some)
  | _ => pure none

/-- Get detailed metadata and statistics for a vector index. -/
def vindexInfo (name : Arg) : ClientScript (Option (Dict String RespValue)) := do
  match ← command [.str "VINDEX", .str "INFO", name] with
  | .list raw => Script.lift ((statsDict texts RespValue.suppressDecode raw .empty).map some)
  | _ => pure none

/-- One search after the other, of whose matches the tuples are kept. -/
def vsearchEach (index : Arg) (topK : ℤ) (threshold : F) :
    List (VectorArg F) → ClientScript (List (List (Item F × Item F × Item F)))
  | [] => .pure []
  | q :: queries => do
    let found ← vsearch codec enc texts index q { topK := topK, threshold := threshold }
    let more ← vsearchEach index topK threshold queries
    pure (found.map (fun m => (m.id, m.score, m.payload)) :: more)

end KacheClient

/-! ## Dictionaries on the wire -/

/-- A dictionary as a list of keys and values in turn. -/
def flattened (items : List (String × RespValue)) : List RespValue :=
  items.flatMap fun item => [.bytes (encodeUtf8 item.1), item.2]

/-- A new key is set behind the others. -/
lemma setItems_of_not_mem {α : Type} {k : String} {v : α} {items : List (String × α)}
    (h : k ∉ items.map Prod.fst) : Dict.setItems k v items = items ++ [(k, v)] := by
  induction items with
  | nil => rfl
  | cons first rest ih =>
    rw [List.map_cons, List.mem_cons, not_or] at h
    rw [Dict.setItems, if_neg (Ne.symm h.1), ih h.2, List.cons_append]

/-- What is set behind the items of a dictionary. -/
lemma statsDict_flattened (texts : Texts) (value : RespValue → RespValue)
    (items : List (String × RespValue)) (stats : Dict String RespValue)
    (hnodup : (items.map Prod.fst).Nodup)
    (hnew : ∀ k ∈ items.map Prod.fst, k ∉ stats.items.map Prod.fst) :
    ∃ d, statsDict texts value (flattened items) stats = .ok d ∧
      d.items = stats.items ++ items.map fun item => (item.1, value item.2) := by
  induction items generalizing stats with
  | nil => exact ⟨stats, rfl, (List.append_nil _).symm⟩
  | cons item items ih =>
    obtain ⟨k, v⟩ := item
    rw [List.map_cons, List.nodup_cons] at hnodup
    rw [List.map_cons, List.forall_mem_cons] at hnew
    have hset : (stats.set k (value v)).items = stats.items ++ [(k, value v)] :=
      setItems_of_not_mem hnew.1
    have hrest : ∀ k' ∈ items.map Prod.fst,
        k' ∉ (stats.set k (value v)).items.map Prod.fst := by
      intro k' hk' hmem
      rw [hset, List.map_append, List.mem_append, List.map_singleton, List.mem_singleton] at hmem
      rcases hmem with hold | rfl
      · exact hnew.2 k' hk' hold
      · exact hnodup.1 hk'
    obtain ⟨d, hd, hitems⟩ := ih (stats.set k (value v)) hnodup.2 hrest
    have hkey : (RespValue.bytes (encodeUtf8 k)).decodedText texts = .ok k := by
      simp [RespValue.decodedText, decodeText]
    refine ⟨d, ?_, ?_⟩
    · rw [flattened, List.flatMap_cons, ← flattened, List.cons_append, List.cons_append,
        List.nil_append, statsDict, hkey]
      exact hd
    · rw [hitems, hset, List.append_assoc, List.map_cons]
      rfl

/-- **Statistics arrive as they are sent.**  Where a server answers `VSTATS` with the keys and the
values of a dictionary in turn, `vstats` returns this dictionary, and of the answer to `VINDEX INFO`
`vindex_info` returns it with the bytes decoded that are UTF-8. -/
theorem run_stats {σ : Type} {handle : Handler ClientCall ClientCall.Answer Exc σ} {s s' : σ}
    (texts : Texts) (index : Arg) (d : Dict String RespValue) :
    (handle (.execute [.str "VSTATS", index]) s = (.ok (.list (flattened d.items)), s') →
      (KacheClient.vstats texts index).run handle s = (.ok (some d), s')) ∧
    (handle (.execute [.str "VINDEX", .str "INFO", index]) s =
        (.ok (.list (flattened d.items)), s') →
      ∃ info, (KacheClient.vindexInfo texts index).run handle s = (.ok (some info), s') ∧
        info.items = d.items.map fun item => (item.1, item.2.suppressDecode)) := by
  have hread (value : RespValue → RespValue) :=
    statsDict_flattened texts value d.items .empty d.nodup fun _ _ => List.not_mem_nil
  constructor
  · intro hanswer
    obtain ⟨stats, hstats, hitems⟩ := hread id
    have hsame : stats = d := by
      cases stats
      cases d
      simpa [Dict.empty] using hitems
    rw [KacheClient.vstats, Script.bind_eq, Script.run_bind, KacheClient.command, Script.run_ask,
      hanswer]
    simp only [Script.run_lift, hstats, hsame]
    rfl
  · intro hanswer
    obtain ⟨info, hinfo, hitems⟩ := hread RespValue.suppressDecode
    refine ⟨info, ?_, hitems⟩
    rw [KacheClient.vindexInfo, Script.bind_eq, Script.run_bind, KacheClient.command,
      Script.run_ask, hanswer]
    simp only [Script.run_lift, hinfo]
    rfl

/-! ## A batch of searches -/

/-- Numbers are read from integers of 64 bits as from their texts, and neither `None` nor a list is
the text of a number. -/
structure VectorCodec.Plain {F : Type} (codec : VectorCodec F) (texts : Texts) : Prop where
  int : ∀ n : ℤ, -2 ^ 63 ≤ n → n < 2 ^ 63 → codec.parse (toString n) = codec.ofInt n
  none : codec.orZero (codec.parse "None") = codec.zero
  list : ∀ items, codec.orZero (codec.parse (texts.repr (.list items))) = codec.zero

/-- The rows of a search have no integer of more than 64 bits as a score. -/
def RespValue.SmallScores (raw : RespValue) : Prop :=
  ∀ rawId n rest, .list (rawId :: .int n :: rest) ∈ raw.listOrNil → -2 ^ 63 ≤ n ∧ n < 2 ^ 63

section Batches

variable {F : Type} {codec : VectorCodec F} {enc : TagEncoding} {texts : Texts}

/-- The tuple of a row is that of its match. -/
lemma batchRow_eq (hcodec : codec.Plain texts) {raw row : RespValue} (hraw : raw.SmallScores)
    (hrow : row ∈ raw.listOrNil) :
    row.batchRow codec texts =
      (row.vectorMatch codec texts).map fun m => (m.id, m.score, m.payload) := by
  unfold RespValue.batchRow RespValue.vectorMatch
  split
  · next rawId rawScore rest =>
    have hscore : rawScore.batchScore codec texts = rawScore.score codec := by
      cases rawScore with
      | int n =>
        obtain ⟨hlow, hhigh⟩ := hraw rawId n rest hrow
        exact congrArg codec.orZero (hcodec.int n hlow hhigh)
      | none => exact hcodec.none
      | list items => exact hcodec.list items
      | str s => rfl
      | bytes b => rfl
    rw [Option.map_some, hscore]
  · rfl

/-- The tuples of a search are those of its matches. -/
lemma filterMap_batchRow (hcodec : codec.Plain texts) {raw : RespValue} (hraw : raw.SmallScores) :
    raw.listOrNil.filterMap (RespValue.batchRow codec texts) =
      (raw.listOrNil.filterMap (RespValue.vectorMatch codec texts)).map
        fun m => (m.id, m.score, m.payload) := by
  rw [List.map_filterMap]
  exact List.filterMap_congr fun row hrow => batchRow_eq hcodec hraw hrow

/-- A server that answers a batch of searches with its answers to the searches, and changes
nothing. -/
structure AnswersBatches {σ : Type} (codec : VectorCodec F) (enc : TagEncoding)
    (handle : Handler ClientCall ClientCall.Answer Exc σ) (s : σ) (index : Arg) (topK : ℤ)
    (threshold : F) (answer : Bytes → RespValue) : Prop where
  each : ∀ q, handle (.execute (vsearchCommand codec enc index q
    { topK := topK, threshold := threshold })) s = (.ok (answer q), s)
  batch : ∀ queries, handle (.execute (vsearchBatchCommand codec index queries topK threshold)) s =
    (.ok (.list (queries.map answer)), s)
  small : ∀ q, (answer q).SmallScores

variable {σ : Type} {handle : Handler ClientCall ClientCall.Answer Exc σ} {s : σ} {index : Arg}
  {topK : ℤ} {threshold : F} {answer : Bytes → RespValue}

/-- One search. -/
lemma AnswersBatches.run_vsearch
    (h : AnswersBatches codec enc handle s index topK threshold answer) (q : VectorArg F) :
    (KacheClient.vsearch codec enc texts index q
        { topK := topK, threshold := threshold }).run handle s =
      ((q.packed codec).map fun queryBytes =>
        (answer queryBytes).listOrNil.filterMap (RespValue.vectorMatch codec texts), s) := by
  rw [KacheClient.vsearch, Script.bind_eq, Script.run_bind, Script.run_lift]
  cases q.packed codec with
  | error e => rfl
  | ok queryBytes =>
    simp only [KacheClient.command, Script.run_map, Script.run_ask, h.each]
    rfl

/-- One search after the other. -/
lemma AnswersBatches.run_vsearchEach
    (h : AnswersBatches codec enc handle s index topK threshold answer)
    (hcodec : codec.Plain texts) (queries : List (VectorArg F)) :
    (KacheClient.vsearchEach codec enc texts index topK threshold queries).run handle s =
      ((packedAll codec queries).map fun qs => qs.map fun queryBytes =>
        (answer queryBytes).listOrNil.filterMap (RespValue.batchRow codec texts), s) := by
  induction queries with
  | nil => rfl
  | cons q queries ih =>
    rw [KacheClient.vsearchEach, Script.bind_eq, Script.run_bind, h.run_vsearch, packedAll]
    cases hq : q.packed codec with
    | error e => rfl
    | ok queryBytes =>
      simp only [Except.map, Script.bind_eq, Script.run_bind, ih]
      cases packedAll codec queries with
      | error e => rfl
      | ok qs =>
        rw [← filterMap_batchRow hcodec (h.small queryBytes)]
        rfl

/-- **A batch of searches is one search after the other.**  It gives the same tuples, or raises the
same exception where a vector cannot be packed. -/
theorem run_vsearchBatch (h : AnswersBatches codec enc handle s index topK threshold answer)
    (hcodec : codec.Plain texts) (queries : List (VectorArg F)) :
    (KacheClient.vsearchBatch codec texts index queries topK threshold).run handle s =
      (KacheClient.vsearchEach codec enc texts index topK threshold queries).run handle s := by
  rw [h.run_vsearchEach hcodec]
  cases queries with
  | nil => rfl
  | cons q queries =>
    rw [KacheClient.vsearchBatch, List.isEmpty_cons, if_neg Bool.false_ne_true, Script.bind_eq,
      Script.run_bind, Script.run_lift]
    cases packedAll codec (q :: queries) with
    | error e => rfl
    | ok qs =>
      simp only [KacheClient.command, Script.run_map, Script.run_ask, h.batch, Except.map,
        RespValue.listOrNil, List.map_map]
      rfl

/-! ### A server -/

/-- Numbers as their texts. -/
def textCodec : VectorCodec String where
  pack xs := .ok (xs.flatMap encodeUtf8)
  zero := "0.0"
  parse s := if s = "None" ∨ s = "" then .error (.valueError "could not convert") else .ok s
  ofInt n :=
    if toString n = "None" ∨ toString n = "" then .error (.valueError "could not convert")
    else .ok (toString n)
  repr := id

lemma plain_textCodec : textCodec.Plain .plain where
  int _ _ _ := rfl
  none := rfl
  list _ := rfl

/-- One row with the query as its id. -/
def echoRow (q : Bytes) : RespValue :=
  .list [.list [.bytes q, .int 1, .none]]

/-- The answer to an argument that is a vector. -/
def echoArg : Arg → Option RespValue
  | .bytes q => some (echoRow q)
  | .str _ => none

/-- A server that finds every query. -/
def echoes : Handler ClientCall ClientCall.Answer Exc Unit
  | .execute (.str "VSEARCH" :: _ :: .bytes q :: _), s => (.ok (echoRow q), s)
  | .execute (.str "VSEARCH_BATCH" :: _ :: rest), s => (.ok (.list (rest.filterMap echoArg)), s)
  | .execute _, s => (.error (.responseError "ERR"), s)
  | .pipeline, s => (.ok 0, s)
  | .executePipeline _ _, s => (.ok [], s)

lemma answersBatches_echoes (enc : TagEncoding) (index : Arg) (topK : ℤ) (threshold : String) :
    AnswersBatches textCodec enc echoes () index topK threshold echoRow where
  each _ := rfl
  batch queries := by
    have hrows : (queries.map Arg.bytes ++ [Arg.str "TOPK", .str (toString topK),
        .str "THRESHOLD", .str threshold]).filterMap echoArg = queries.map echoRow := by
      induction queries with
      | nil => rfl
      | cons q queries ih => exact congrArg (echoRow q :: ·) ih
    exact congrArg (fun rows => (Except.ok (RespValue.list rows), ())) hrows
  small q rawId n rest hrow := by
    obtain ⟨rfl, rfl, rfl⟩ : rawId = .bytes q ∧ n = 1 ∧ rest = [.none] := by
      simpa [echoRow, RespValue.listOrNil] using hrow
    decide

/-- Two queries, one of numbers and one of bytes. -/
theorem run_vsearchBatch_two :
    (KacheClient.vsearchBatch textCodec .plain (.str "i") [.floats ["1"], .bytes [0]] 1
        "0.5").run echoes () =
      (KacheClient.vsearchEach textCodec ⟨fun _ => [], id⟩ .plain (.str "i") 1 "0.5"
        [.floats ["1"], .bytes [0]]).run echoes () :=
  run_vsearchBatch (answersBatches_echoes ⟨fun _ => [], id⟩ (.str "i") 1 "0.5") plain_textCodec
    [.floats ["1"], .bytes [0]]

end Batches

/-! ## A batch of additions -/

/-- An item of a batch as the server sees it. -/
structure BatchItem where
  itemId : Bytes
  vector : Bytes
  payload : Bytes

/-- The items of a batch; one without a payload has the payload `-`. -/
def batchItems {F : Type} (codec : VectorCodec F) :
    List (Arg × VectorArg F × Option Arg) → Except Exc (List BatchItem)
  | [] => .ok []
  | (itemId, vector, payload) :: rest => do
    let vectorBytes ← vector.packed codec
    let items ← batchItems codec rest
    return ⟨itemId.raw, vectorBytes, (payload.getD (.str "-")).raw⟩ :: items

/-- The arguments of items on the wire. -/
def BatchItem.wireArgs (ex : Option ℤ) (items : List BatchItem) : List Bytes :=
  items.flatMap fun item =>
    [item.itemId, item.vector, item.payload] ++ rawArgs (optionArgs "EX" (intArg ex))

section Additions

variable {F : Type} {codec : VectorCodec F}

/-- The arguments of a batch are those of its items. -/
lemma batchArgs_eq {ex : Option ℤ} {items : List (Arg × VectorArg F × Option Arg)}
    {args : List Arg} (h : batchArgs codec ex items = .ok args) :
    ∃ batch, batchItems codec items = .ok batch ∧
      batch.map BatchItem.itemId = items.map (fun item => item.1.raw) ∧
      rawArgs args = BatchItem.wireArgs ex batch := by
  induction items generalizing args with
  | nil =>
    obtain rfl : [] = args := Except.ok.inj h
    exact ⟨[], rfl, rfl, rfl⟩
  | cons item items ih =>
    obtain ⟨itemId, vector, payload⟩ := item
    rw [batchArgs] at h
    rw [batchItems]
    cases hvector : vector.packed codec with
    | error e => simp [hvector, bind, Except.bind] at h
    | ok vectorBytes =>
      cases hargs : batchArgs codec ex items with
      | error e => simp [hvector, hargs, bind, Except.bind] at h
      | ok more =>
        obtain ⟨batch, hbatch, hids, hmore⟩ := ih hargs
        rw [hvector, hargs] at h
        obtain rfl := Except.ok.inj h
        rw [hbatch]
        refine ⟨_, rfl, congrArg (itemId.raw :: ·) hids, ?_⟩
        rw [BatchItem.wireArgs, List.flatMap_cons, ← BatchItem.wireArgs, ← hmore]
        simp [rawArgs, Arg.raw]

/-- Different integers have different texts. -/
lemma toString_int_injective : Function.Injective fun n : ℤ => toString n := by
  have hnat {m n : ℕ} (h : Nat.repr m = Nat.repr n) : m = n := by
    have hdigits := congrArg (fun s => Nat.ofDigitChars 10 s.toList 0) h
    simpa using hdigits
  have hsign (m n : ℕ) : Nat.repr m ≠ "-" ++ Nat.repr n := by
    intro h
    have hmem : '-' ∈ (Nat.repr m).toList := by
      rw [h, String.toList_append]
      exact List.mem_cons_self
    rw [Nat.toList_repr] at hmem
    have hdigit := Nat.isDigit_of_mem_toDigits (by norm_num) (by norm_num) hmem
    simp at hdigit
  intro m n h
  cases m with
  | ofNat m =>
    cases n with
    | ofNat n => exact congrArg Int.ofNat (hnat h)
    | negSucc n => exact absurd h (hsign m (n + 1))
  | negSucc m =>
    cases n with
    | ofNat n => exact absurd h.symm (hsign n (m + 1))
    | negSucc n =>
      have hchars := congrArg String.toList (show "-" ++ Nat.repr (m + 1) = "-" ++ Nat.repr (n + 1)
        from h)
      rw [String.toList_append, String.toList_append] at hchars
      have hsucc := hnat (String.toList_inj.mp (List.append_cancel_left hchars))
      rw [Nat.succ_injective hsucc]

/-- Without a lifetime there is the next id behind an item, or nothing. -/
lemma wireArgs_ne_lifetime {ex : Option ℤ} {n : ℤ} {items : List BatchItem}
    (hids : ∀ item ∈ items, item.itemId ≠ encodeUtf8 "EX") (rest : List Bytes) :
    BatchItem.wireArgs ex items ≠ rawArgs (optionArgs "EX" (intArg (some n))) ++ rest := by
  intro h
  cases items with
  | nil => simp [rawArgs, optionArgs, intArg, BatchItem.wireArgs] at h
  | cons first items =>
    have hhead := congrArg List.head? h
    simp only [BatchItem.wireArgs, rawArgs, optionArgs, intArg, Arg.raw, List.flatMap_cons,
      List.cons_append, List.head?_cons, Option.map_some, Option.elim_some, List.map_cons,
      Option.some.injEq] at hhead
    exact hids first List.mem_cons_self hhead

/-- The lifetime behind an item is read off the wire. -/
lemma lifetime_inj {ex ex' : Option ℤ} {items items' : List BatchItem}
    (hids : ∀ item ∈ items, item.itemId ≠ encodeUtf8 "EX")
    (hids' : ∀ item ∈ items', item.itemId ≠ encodeUtf8 "EX")
    (h : rawArgs (optionArgs "EX" (intArg ex)) ++ BatchItem.wireArgs ex items =
      rawArgs (optionArgs "EX" (intArg ex')) ++ BatchItem.wireArgs ex' items') : ex = ex' := by
  cases ex with
  | none =>
    cases ex' with
    | none => rfl
    | some n' => exact absurd h (wireArgs_ne_lifetime hids _)
  | some n =>
    cases ex' with
    | none => exact absurd h.symm (wireArgs_ne_lifetime hids' _)
    | some n' =>
      have hsecond := congrArg (fun l => l[1]?) h
      simp only [rawArgs, optionArgs, intArg, Arg.raw, Option.map_some, Option.elim_some,
        List.map_cons, List.map_nil, List.cons_append, List.getElem?_cons_succ,
        List.getElem?_cons_zero, Option.some.injEq] at hsecond
      exact congrArg some (toString_int_injective (Store.encodeUtf8_injective hsecond))

/-- The lifetime of a batch and its items are read off the wire, if no id looks like the option of
the lifetime. -/
lemma wireArgs_inj {ex ex' : Option ℤ} {items items' : List BatchItem} (hne : items ≠ [])
    (hids : ∀ item ∈ items, item.itemId ≠ encodeUtf8 "EX")
    (hids' : ∀ item ∈ items', item.itemId ≠ encodeUtf8 "EX")
    (h : BatchItem.wireArgs ex items = BatchItem.wireArgs ex' items') :
    ex = ex' ∧ items = items' := by
  induction items generalizing items' with
  | nil => exact absurd rfl hne
  | cons item items ih =>
    cases items' with
    | nil => simp [BatchItem.wireArgs] at h
    | cons item' items' =>
      have hrest := (List.forall_mem_cons.mp hids).2
      have hrest' := (List.forall_mem_cons.mp hids').2
      rw [BatchItem.wireArgs, BatchItem.wireArgs, List.flatMap_cons, List.flatMap_cons,
        ← BatchItem.wireArgs, ← BatchItem.wireArgs] at h
      simp only [List.cons_append, List.nil_append, List.cons.injEq] at h
      obtain ⟨hid, hvector, hpayload, htail⟩ := h
      have hitem : item = item' := by
        cases item
        cases item'
        simp_all
      obtain rfl := lifetime_inj hrest hrest' htail
      have hitems := List.append_cancel_left htail
      refine ⟨rfl, ?_⟩
      cases items with
      | nil =>
        cases items' with
        | nil => rw [hitem]
        | cons next items' => simp [BatchItem.wireArgs] at hitems
      | cons next items =>
        obtain ⟨-, hsame⟩ := ih (List.cons_ne_nil _ _) hrest hrest' hitems
        rw [hitem, hsame]

/-- The bytes of a command are those of its arguments. -/
lemma encodeCommand_eq_iff {args args' : List Arg} :
    encodeCommand args = encodeCommand args' ↔ rawArgs args = rawArgs args' := by
  constructor
  · intro h
    have hone : encodeCommands [args] = encodeCommands [args'] := by
      simpa [encodeCommands] using h
    simpa using encodeCommands_inj hone
  · intro h
    have hbytes (args : List Arg) : encodeCommand args =
        42 :: (decimal (rawArgs args).length ++ crlf) ++ (rawArgs args).flatMap encodeBulk := by
      rw [encodeCommand, rawArgs, List.length_map, List.flatMap_map]
    rw [hbytes, hbytes, h]

/-- The bytes that a method sends. -/
def sentBytes {σ α : Type} (handle : Handler ClientCall ClientCall.Answer Exc σ) (s : σ)
    (m : ClientScript α) : Bytes :=
  wireOf (m.run (Script.traced handle) (s, [])).2.2

section Wire

variable {σ : Type} {handle : Handler ClientCall ClientCall.Answer Exc σ}

/-- `vadd_batch` sends one command, if there are items, and nothing otherwise. -/
lemma sentBytes_vaddBatch {index : Arg} {ex : Option ℤ}
    {items : List (Arg × VectorArg F × Option Arg)} {args : List Arg}
    (hargs : batchArgs codec ex items = .ok args) (s : σ) :
    sentBytes handle s (KacheClient.vaddBatch codec index items ex) =
      if items = [] then [] else encodeCommand ([.str "VADD_BATCH", index] ++ args) := by
  unfold sentBytes KacheClient.vaddBatch
  rcases items with _ | ⟨item, items⟩
  · rfl
  · rw [if_neg (by simp), if_neg (List.cons_ne_nil _ _), hargs, Script.bind_eq,
      Script.run_bind_of_ok (Script.run_lift _), Script.run_map, KacheClient.command,
      Script.run_ask]
    exact List.append_nil _

/-- **What the wire form of a batch determines.**  Two calls of `vadd_batch` with items, no id of
which is `EX`, send the same bytes if and only if they name the same index, give the same lifetime,
and have the same items, where an item without a payload is one with the payload `-`. -/
theorem vaddBatch_wire_eq_iff {index index' : Arg} {ex ex' : Option ℤ}
    {items items' : List (Arg × VectorArg F × Option Arg)} {args args' : List Arg}
    (hargs : batchArgs codec ex items = .ok args) (hargs' : batchArgs codec ex' items' = .ok args')
    (hne : items ≠ []) (hids : ∀ item ∈ items, item.1.raw ≠ encodeUtf8 "EX")
    (hids' : ∀ item ∈ items', item.1.raw ≠ encodeUtf8 "EX") (s s' : σ) :
    sentBytes handle s (KacheClient.vaddBatch codec index items ex) =
        sentBytes handle s' (KacheClient.vaddBatch codec index' items' ex') ↔
      index.raw = index'.raw ∧ ex = ex' ∧ batchItems codec items = batchItems codec items' := by
  obtain ⟨batch, hbatch, hmap, hwire⟩ := batchArgs_eq hargs
  obtain ⟨batch', hbatch', hmap', hwire'⟩ := batchArgs_eq hargs'
  have hwireIds {items : List (Arg × VectorArg F × Option Arg)} {batch : List BatchItem}
      (hmap : batch.map BatchItem.itemId = items.map fun item => item.1.raw)
      (hids : ∀ item ∈ items, item.1.raw ≠ encodeUtf8 "EX") :
      ∀ item ∈ batch, item.itemId ≠ encodeUtf8 "EX" := by
    intro item hitem
    have hid : item.itemId ∈ items.map fun item => item.1.raw :=
      hmap ▸ List.mem_map_of_mem hitem
    obtain ⟨original, horiginal, heq⟩ := List.mem_map.mp hid
    exact heq ▸ hids original horiginal
  have hbatchNe : batch ≠ [] := by
    rintro rfl
    exact hne (List.map_eq_nil_iff.mp hmap.symm)
  rw [sentBytes_vaddBatch hargs, sentBytes_vaddBatch hargs', if_neg hne, hbatch, hbatch',
    Except.ok.injEq]
  by_cases hempty : items' = []
  · -- nothing is sent for the second call
    have hbatchNil : batch' = [] := by
      rw [hempty] at hmap'
      exact List.map_eq_nil_iff.mp hmap'
    rw [if_pos hempty, hbatchNil]
    exact iff_of_false (by simp [encodeCommand]) fun h => hbatchNe h.2.2
  have hsplit (index : Arg) (args : List Arg) : rawArgs ([.str "VADD_BATCH", index] ++ args) =
      encodeUtf8 "VADD_BATCH" :: index.raw :: rawArgs args := rfl
  rw [if_neg hempty, encodeCommand_eq_iff, hsplit, hsplit, hwire, hwire', List.cons.injEq,
    List.cons.injEq]
  constructor
  · rintro ⟨-, hindex, hitems⟩
    exact ⟨hindex, wireArgs_inj hbatchNe (hwireIds hmap hids) (hwireIds hmap' hids') hitems⟩
  · rintro ⟨hindex, rfl, rfl⟩
    exact ⟨rfl, hindex, rfl⟩

/-- Two items each, with and without the payload `-`. -/
theorem vaddBatch_wire_eq_iff_dash :
    sentBytes echoes () (KacheClient.vaddBatch textCodec (.str "i")
          [(.str "a", .floats ["1"], none), (.str "b", .bytes [0], some (.str "x"))] (some 60)) =
        sentBytes echoes () (KacheClient.vaddBatch textCodec (.bytes [105])
          [(.str "a", .bytes [49], some (.str "-")), (.bytes [98], .bytes [0], some (.str "x"))]
          (some 60)) ↔
      (Arg.str "i").raw = (Arg.bytes [105]).raw ∧ (some 60 : Option ℤ) = some 60 ∧
        batchItems textCodec
            [(.str "a", .floats ["1"], none), (.str "b", .bytes [0], some (.str "x"))] =
          batchItems textCodec
            [(.str "a", .bytes [49], some (.str "-")),
              (.bytes [98], .bytes [0], some (.str "x"))] :=
  vaddBatch_wire_eq_iff rfl rfl (List.cons_ne_nil _ _) (by decide) (by decide) () ()

end Wire

end Additions

end KacheDB
