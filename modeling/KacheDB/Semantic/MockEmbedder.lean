import KacheDB.Foundation.Histogram
import KacheDB.Integrations.KeyValue
import KacheDB.Semantic.Server

/-!
# The built-in embedder

`MockEmbedder` is the embedder of a semantic cache without an embedding model.  The digests of the
words of a text choose the coordinates to which something is added, and a text with words of one of
five subjects gets some more on the coordinates of this subject.  What is added are multiples of a
quarter, which floating-point numbers hold exactly; the vector is divided by its length at the end.

`project_eq_iff` says what the vector keeps of a text: how often each word stands in it, and nothing
else.  `encode_spec` says that the vector of a text with words is never too short to be divided.
-/

namespace KacheDB

open Foundation

/-- What the embedder uses of texts and of floating-point numbers. -/
structure EmbedderLibrary (F : Type) where
  /-- `text.lower()` -/
  lower : String → String
  /-- The characters of `\w`. -/
  isWord : Char → Bool
  /-- `1.0 / math.sqrt(dimension)` -/
  evenly : ℕ → F
  /-- `math.sqrt(sum(x * x for x in vec))` -/
  norm : List ℚ → F
  /-- `norm > 1e-12` -/
  exceeds : F → Bool
  /-- `x / norm` -/
  div : ℚ → F → F
  /-- A number as it is. -/
  ofRat : ℚ → F

/-- `int(hashlib.md5(b).hexdigest(), 16)` and `int(hashlib.sha256(b).hexdigest(), 16)`. -/
structure Digests where
  md5 : Bytes → ℕ
  sha256 : Bytes → ℕ

/-- `_SEMANTIC_CLUSTERS` -/
def semanticClusters : List (String × List String) :=
  [("password_reset",
      ["password", "reset", "change", "recover", "forgot", "pass", "login", "credentials"]),
    ("subscription_cancel",
      ["cancel", "subscription", "membership", "unsubscribe", "billing", "terminate", "plan",
        "stop"]),
    ("rate_limits",
      ["rate", "limit", "limits", "api", "quota", "throttling", "requests", "minute", "second",
        "rps"]),
    ("invoices",
      ["invoice", "invoices", "receipt", "receipts", "billing", "pdf", "csv", "tax", "payment",
        "export", "download"]),
    ("team_management",
      ["team", "invite", "coworker", "coworkers", "member", "members", "workspace", "colleague",
        "role", "add"])]

/-- `re.findall(r"\b\w+\b", text.lower())`: the longest stretches of word characters. -/
def EmbedderLibrary.words {F : Type} (lib : EmbedderLibrary F) (text : String) : List String :=
  (((lib.lower text).toList.splitOnP fun c => !lib.isWord c).filter (· ≠ [])).map String.ofList

/-- Deterministic token & semantic hash embedder. -/
structure MockEmbedder where
  dimension : ℕ

namespace MockEmbedder

variable (e : MockEmbedder) (digests : Digests)

/-- Add a subject, if words of it occur. -/
def projectCluster (words : List String) (vec : List ℚ) (cluster : String × List String) :
    List ℚ :=
  let matchCount := words.countP (· ∈ cluster.2)
  if matchCount > 0 then
    let clusterSeed := digests.md5 (encodeUtf8 cluster.1)
    (List.range 32).foldl (fun vec offset =>
      addAt vec ((clusterSeed + offset * 11) % e.dimension) (3 * matchCount)) vec
  else vec

/-- Add a word. -/
def projectWord (vec : List ℚ) (word : String) : List ℚ :=
  let h := digests.sha256 (encodeUtf8 word)
  let idx1 := h % e.dimension
  let idx2 := (h >>> 16) % e.dimension
  let idx3 := (h >>> 32) % e.dimension
  addAt (addAt (addAt vec idx1 1) idx2 (1 / 2)) idx3 (1 / 4)

/-- The vector of some words, before it is divided by its length. -/
def project (words : List String) : List ℚ :=
  let vec := List.replicate e.dimension 0
  let vec := semanticClusters.foldl (e.projectCluster digests words) vec
  words.foldl (e.projectWord digests) vec

/-- The vector of a text.  A dimension of 0 is divided by, with or without words. -/
def encode {F : Type} (lib : EmbedderLibrary F) (text : String) : Except Exc (List F) :=
  if e.dimension = 0 then .error .zeroDivisionError
  else
    match lib.words text with
    | [] => .ok (List.replicate e.dimension (lib.evenly e.dimension))
    | words =>
      let vec := e.project digests words
      let norm := lib.norm vec
      if lib.exceeds norm then .ok (vec.map (lib.div · norm)) else .ok (vec.map lib.ofRat)

/-! ## What is added -/

/-- What is added for a subject. -/
def clusterAdditions (words : List String) (cluster : String × List String) : List (ℕ × ℚ) :=
  if words.countP (· ∈ cluster.2) > 0 then
    (List.range 32).map fun offset =>
      ((digests.md5 (encodeUtf8 cluster.1) + offset * 11) % e.dimension,
        3 * (words.countP (· ∈ cluster.2) : ℚ))
  else []

/-- What is added for a word. -/
def wordAdditions (word : String) : List (ℕ × ℚ) :=
  let h := digests.sha256 (encodeUtf8 word)
  [(h % e.dimension, 1), ((h >>> 16) % e.dimension, 1 / 2), ((h >>> 32) % e.dimension, 1 / 4)]

/-- What is added for some words. -/
def additions (words : List String) : List (ℕ × ℚ) :=
  semanticClusters.flatMap (e.clusterAdditions digests words) ++
    words.flatMap (e.wordAdditions digests)

variable {e digests} {words words' : List String}

/-- A loop whose turns add is one that adds everything. -/
lemma foldl_addAll {ι : Type} (f : ι → List (ℕ × ℚ)) (g : List ℚ → ι → List ℚ)
    (hg : ∀ vec i, g vec i = addAll vec (f i)) (is : List ι) (vec : List ℚ) :
    is.foldl g vec = addAll vec (is.flatMap f) := by
  induction is generalizing vec with
  | nil => rfl
  | cons i is ih => rw [List.foldl_cons, ih, hg, List.flatMap_cons, addAll_append]

/-- The vector is made by additions. -/
lemma project_eq_addAll (e : MockEmbedder) (digests : Digests) (words : List String) :
    e.project digests words =
      addAll (List.replicate e.dimension 0) (e.additions digests words) := by
  have hcluster (vec : List ℚ) (cluster : String × List String) :
      e.projectCluster digests words vec cluster =
        addAll vec (e.clusterAdditions digests words cluster) := by
    simp only [projectCluster, clusterAdditions]
    split_ifs
    · rw [addAll, List.foldl_map]
    · rfl
  have hword (vec : List ℚ) (word : String) :
      e.projectWord digests vec word = addAll vec (e.wordAdditions digests word) := rfl
  simp only [project, additions]
  rw [foldl_addAll _ _ hcluster, foldl_addAll _ _ hword, addAll_append]

/-! ## What the vector keeps of a text -/

/-- The order of the words does not matter. -/
lemma project_perm (e : MockEmbedder) (digests : Digests) (h : words.Perm words') :
    e.project digests words = e.project digests words' := by
  have hclusters : e.clusterAdditions digests words = e.clusterAdditions digests words' := by
    funext cluster
    simp only [clusterAdditions, h.countP_eq]
  rw [project_eq_addAll, project_eq_addAll]
  refine addAll_perm _ ?_
  rw [additions, additions, hclusters]
  exact (h.flatMap_right _).append_left _

/-- Digests by which a word is told from all others: its own is 1, and theirs are 0. -/
def tellingDigests (word : String) : Digests where
  md5 _ := 0
  sha256 b := if b = encodeUtf8 word then 1 else 0

/-- With these digests, a dimension in which the subjects leave the second coordinate alone. -/
lemma amountAt_clusters (word : String) (words : List String) :
    amountAt (semanticClusters.flatMap
      ((⟨400⟩ : MockEmbedder).clusterAdditions (tellingDigests word) words)) 1 = 0 := by
  refine amountAt_eq_zero fun a ha => ?_
  obtain ⟨cluster, -, ha⟩ := List.mem_flatMap.mp ha
  rw [clusterAdditions] at ha
  split_ifs at ha
  · obtain ⟨offset, hoffset, rfl⟩ := List.mem_map.mp ha
    have hlt := List.mem_range.mp hoffset
    simp only [tellingDigests]
    omega
  · cases ha

/-- What is left there is the number of times that the word occurs. -/
lemma amountAt_words (word : String) (words : List String) :
    amountAt (words.flatMap ((⟨400⟩ : MockEmbedder).wordAdditions (tellingDigests word))) 1 =
      (words.count word : ℚ) := by
  induction words with
  | nil => rfl
  | cons w words ih =>
    have hword : amountAt ((⟨400⟩ : MockEmbedder).wordAdditions (tellingDigests word) w) 1 =
        if w = word then 1 else 0 := by
      have hdigest : (tellingDigests word).sha256 (encodeUtf8 w) = if w = word then 1 else 0 := by
        simp only [tellingDigests, Store.encodeUtf8_injective.eq_iff]
      rw [wordAdditions, hdigest]
      split_ifs
      · simp [amountAt]
      · simp [amountAt]
    rw [List.flatMap_cons, amountAt_append, ih, hword, List.count_cons]
    simp only [beq_iff_eq]
    split_ifs
    · push_cast
      ring
    · push_cast
      ring

/-- A coordinate tells how often the word occurs. -/
lemma getElem?_project_telling (word : String) (words : List String) :
    ((⟨400⟩ : MockEmbedder).project (tellingDigests word) words)[1]? =
      some (words.count word : ℚ) := by
  rw [project_eq_addAll, getElem?_addAll, additions, amountAt_append, amountAt_clusters,
    amountAt_words, List.getElem?_replicate]
  simp

/-- **A text is its words.**  The vectors of two texts, before they are divided by their lengths,
are the same in every dimension and whatever the digests are, exactly if every word occurs in both
texts the same number of times. -/
theorem project_eq_iff (words words' : List String) :
    (∀ (e : MockEmbedder) (digests : Digests),
        e.project digests words = e.project digests words') ↔ words.Perm words' := by
  constructor
  · intro h
    refine List.perm_iff_count.mpr fun word => ?_
    have hcount := congrArg (·[1]?) (h ⟨400⟩ (tellingDigests word))
    simp only [getElem?_project_telling, Option.some.injEq] at hcount
    exact_mod_cast hcount
  · exact fun h e digests => project_perm e digests h

/-- Texts with the same words have the same vector. -/
lemma encode_eq_of_perm {F : Type} (lib : EmbedderLibrary F) (e : MockEmbedder) (digests : Digests)
    {text text' : String} (h : (lib.words text).Perm (lib.words text')) :
    e.encode digests lib text = e.encode digests lib text' := by
  have hproject := project_perm e digests h
  unfold encode
  split_ifs
  · rfl
  · cases hwords : lib.words text with
    | nil =>
      rw [hwords] at h
      rw [h.nil_eq]
    | cons w ws =>
      cases hwords' : lib.words text' with
      | nil =>
        rw [hwords, hwords'] at h
        exact absurd h.eq_nil (List.cons_ne_nil w ws)
      | cons w' ws' =>
        rw [hwords, hwords'] at hproject
        simp only [hproject]

/-! ## The length of the vector -/

/-- The number of times that words of a subject occur. -/
def matchTotal (words : List String) : ℕ :=
  (semanticClusters.map fun cluster => words.countP (· ∈ cluster.2)).sum

lemma mem_additions {a : ℕ × ℚ} (hdim : 0 < e.dimension) (ha : a ∈ e.additions digests words) :
    a.1 < e.dimension ∧ ∃ n : ℕ, a.2 = n / 4 := by
  rw [additions, List.mem_append, List.mem_flatMap, List.mem_flatMap] at ha
  obtain ⟨cluster, -, ha⟩ | ⟨word, -, ha⟩ := ha
  · rw [clusterAdditions] at ha
    split_ifs at ha
    · obtain ⟨offset, -, rfl⟩ := List.mem_map.mp ha
      refine ⟨Nat.mod_lt _ hdim, 12 * words.countP (· ∈ cluster.2), ?_⟩
      push_cast
      ring
    · cases ha
  · simp only [wordAdditions, List.mem_cons, List.not_mem_nil, or_false] at ha
    obtain rfl | rfl | rfl := ha
    · exact ⟨Nat.mod_lt _ hdim, 4, by norm_num⟩
    · exact ⟨Nat.mod_lt _ hdim, 2, by norm_num⟩
    · exact ⟨Nat.mod_lt _ hdim, 1, by norm_num⟩

/-- The coordinates are multiples of a quarter. -/
lemma exists_quarters (hdim : 0 < e.dimension) :
    ∀ x ∈ e.project digests words, ∃ n : ℕ, x = n / 4 := by
  rw [project_eq_addAll]
  refine forall_mem_addAll ?_ ?_ fun a ha => (mem_additions hdim ha).2
  · rintro _ _ ⟨m, rfl⟩ ⟨n, rfl⟩
    refine ⟨m + n, ?_⟩
    push_cast
    ring
  · intro x hx
    rw [List.eq_of_mem_replicate hx]
    exact ⟨0, by norm_num⟩

/-- How much is added for a subject. -/
lemma sum_clusterAdditions (cluster : String × List String) :
    ((e.clusterAdditions digests words cluster).map Prod.snd).sum =
      96 * (words.countP (· ∈ cluster.2) : ℚ) := by
  unfold clusterAdditions
  split_ifs with hcount
  · rw [List.map_map]
    have hconst : (Prod.snd ∘ fun offset => ((digests.md5 (encodeUtf8 cluster.1) + offset * 11) %
        e.dimension, 3 * (words.countP (· ∈ cluster.2) : ℚ))) =
          fun _ : ℕ => 3 * (words.countP (· ∈ cluster.2) : ℚ) := rfl
    rw [hconst, List.map_const', List.sum_replicate, List.length_range, nsmul_eq_mul]
    push_cast
    ring
  · have hzero : words.countP (· ∈ cluster.2) = 0 := by omega
    rw [hzero]
    norm_num

/-- How much is added for each of several things. -/
lemma sum_flatMap {ι : Type} (f : ι → List (ℕ × ℚ)) (is : List ι) :
    ((is.flatMap f).map Prod.snd).sum = (is.map fun i => ((f i).map Prod.snd).sum).sum := by
  induction is with
  | nil => rfl
  | cons i is ih =>
    rw [List.flatMap_cons, List.map_append, List.sum_append, ih, List.map_cons, List.sum_cons]

/-- The whole of the vector. -/
lemma sum_project (hdim : 0 < e.dimension) :
    (e.project digests words).sum = 7 / 4 * words.length + 96 * matchTotal words := by
  have hcluster : semanticClusters.map (fun cluster =>
      ((e.clusterAdditions digests words cluster).map Prod.snd).sum) =
        semanticClusters.map fun cluster => 96 * (words.countP (· ∈ cluster.2) : ℚ) :=
    List.map_congr_left fun cluster _ => sum_clusterAdditions cluster
  have hword (word : String) :
      ((e.wordAdditions digests word).map Prod.snd).sum = 7 / 4 := by
    simp only [wordAdditions, List.map_cons, List.map_nil, List.sum_cons, List.sum_nil]
    norm_num
  rw [project_eq_addAll, sum_addAll]
  · rw [additions, List.map_append, List.sum_append, sum_flatMap, sum_flatMap, hcluster,
      List.sum_map_mul_left]
    simp only [hword, List.map_const', List.sum_replicate, smul_zero, zero_add, nsmul_eq_mul,
      matchTotal, Nat.cast_list_sum, List.map_map, Function.comp_def]
    ring
  · intro a ha
    rw [List.length_replicate]
    exact (mem_additions hdim ha).1

/-- The square of a multiple of a quarter. -/
lemma sum_div_four_le_sum_sq {vec : List ℚ} (h : ∀ x ∈ vec, ∃ n : ℕ, x = n / 4) :
    vec.sum / 4 ≤ (vec.map (· ^ 2)).sum := by
  induction vec with
  | nil => norm_num
  | cons x vec ih =>
    obtain ⟨⟨n, rfl⟩, hrest⟩ := List.forall_mem_cons.mp h
    have hle : (n : ℚ) ≤ (n : ℚ) ^ 2 := by
      exact_mod_cast Nat.le_self_pow two_ne_zero n
    have hvec := ih hrest
    rw [List.sum_cons, List.map_cons, List.sum_cons]
    linarith

/-- **The vector of a text with words.**  It has the dimension of the embedder and no negative
coordinate, a weight of 7/4 for each word and of 96 for each word of a subject, and it is divided by
its length: the test that keeps a vector that is too short as it is never succeeds. -/
theorem encode_spec {F : Type} (lib : EmbedderLibrary F) (e : MockEmbedder) (digests : Digests)
    {text : String} (hdim : 0 < e.dimension) (hwords : lib.words text ≠ [])
    (hexceeds : ∀ vec : List ℚ, 7 / 16 ≤ (vec.map (· ^ 2)).sum →
      lib.exceeds (lib.norm vec) = true) :
    e.encode digests lib text = .ok ((e.project digests (lib.words text)).map
        (lib.div · (lib.norm (e.project digests (lib.words text))))) ∧
      (e.project digests (lib.words text)).length = e.dimension ∧
      (∀ x ∈ e.project digests (lib.words text), 0 ≤ x) ∧
      (e.project digests (lib.words text)).sum =
        7 / 4 * (lib.words text).length + 96 * matchTotal (lib.words text) := by
  have hquarters : ∀ x ∈ e.project digests (lib.words text), ∃ n : ℕ, x = n / 4 :=
    exists_quarters hdim
  have hsum : (e.project digests (lib.words text)).sum =
      7 / 4 * (lib.words text).length + 96 * matchTotal (lib.words text) := sum_project hdim
  refine ⟨?_, ?_, fun x hx => ?_, hsum⟩
  · have hpos : (1 : ℚ) ≤ (lib.words text).length := by
      exact_mod_cast List.length_pos_iff.mpr hwords
    have hmatch : (0 : ℚ) ≤ matchTotal (lib.words text) := Nat.cast_nonneg _
    have hlong : 7 / 16 ≤ ((e.project digests (lib.words text)).map (· ^ 2)).sum := by
      refine le_trans ?_ (sum_div_four_le_sum_sq hquarters)
      rw [hsum]
      linarith
    have hdivided := hexceeds _ hlong
    unfold encode
    rw [if_neg hdim.ne']
    rcases hlist : lib.words text with _ | ⟨w, ws⟩
    · exact absurd hlist hwords
    · rw [hlist] at hdivided
      simp only [hdivided, if_true]
  · rw [project_eq_addAll, length_addAll, List.length_replicate]
  · obtain ⟨n, rfl⟩ := hquarters x hx
    positivity

/-- The square root of a number, down to a quarter. -/
def quarterRoot (x : ℚ) : ℚ :=
  (Nat.sqrt ⌊16 * x⌋₊ : ℚ) / 4

/-- ASCII text in lower case, and rational numbers of which some have a root. -/
def rationalLibrary : EmbedderLibrary ℚ where
  lower := id
  isWord c := c.isAlphanum || c == '_'
  evenly dimension := 1 / quarterRoot dimension
  norm vec := quarterRoot (vec.map (· ^ 2)).sum
  exceeds norm := 1 / 10 ^ 12 < norm
  div := (· / ·)
  ofRat := id

lemma exceeds_rationalLibrary (vec : List ℚ) (h : 7 / 16 ≤ (vec.map (· ^ 2)).sum) :
    rationalLibrary.exceeds (rationalLibrary.norm vec) = true := by
  have hfloor : 7 ≤ ⌊16 * (vec.map (· ^ 2)).sum⌋₊ := Nat.le_floor (by push_cast; linarith)
  have hroot : 2 ≤ Nat.sqrt ⌊16 * (vec.map (· ^ 2)).sum⌋₊ := by
    rw [Nat.le_sqrt]
    omega
  have hcast : (2 : ℚ) ≤ Nat.sqrt ⌊16 * (vec.map (· ^ 2)).sum⌋₊ := by exact_mod_cast hroot
  refine decide_eq_true ?_
  change (1 : ℚ) / 10 ^ 12 < quarterRoot _
  rw [quarterRoot]
  linarith

/-- Three words, two of them of one subject, in eight dimensions. -/
theorem encode_spec_words :
    0 < 8 ∧ rationalLibrary.words "reset my login" ≠ [] ∧
      (∀ vec : List ℚ, 7 / 16 ≤ (vec.map (· ^ 2)).sum →
        rationalLibrary.exceeds (rationalLibrary.norm vec) = true) ∧
      (⟨8⟩ : MockEmbedder).encode (tellingDigests "my") rationalLibrary "reset my login" =
          .ok (((⟨8⟩ : MockEmbedder).project (tellingDigests "my")
            (rationalLibrary.words "reset my login")).map (rationalLibrary.div ·
              (rationalLibrary.norm ((⟨8⟩ : MockEmbedder).project (tellingDigests "my")
                (rationalLibrary.words "reset my login"))))) ∧
        ((⟨8⟩ : MockEmbedder).project (tellingDigests "my")
          (rationalLibrary.words "reset my login")).length = 8 ∧
        (∀ x ∈ (⟨8⟩ : MockEmbedder).project (tellingDigests "my")
          (rationalLibrary.words "reset my login"), 0 ≤ x) ∧
        ((⟨8⟩ : MockEmbedder).project (tellingDigests "my")
            (rationalLibrary.words "reset my login")).sum =
          7 / 4 * (rationalLibrary.words "reset my login").length +
            96 * matchTotal (rationalLibrary.words "reset my login") := by
  have hdim : 0 < 8 := by decide
  have hwords : rationalLibrary.words "reset my login" ≠ [] := by decide
  exact ⟨hdim, hwords, exceeds_rationalLibrary, encode_spec rationalLibrary ⟨8⟩
    (tellingDigests "my") hdim hwords exceeds_rationalLibrary⟩

end MockEmbedder

/-! ## A semantic cache with this embedder -/

/-- Prompts with the same words are the same prompt to a semantic cache whose embedder this is,
whatever has been stored, if they are not looked up as they are. -/
theorem lookup_eq_of_perm {F : Type} (lib : EmbedderLibrary F) (e : MockEmbedder)
    (digests : Digests) {b : Backend F} (hencode : b.encode = e.encode digests lib)
    (floats : Floats F) (c : SemanticCache F) (s : Server) {q : GetArgs F} {prompt : String}
    (hexact : q.exactFirst = false ∨ c.workspace = "")
    (h : (lib.words q.prompt).Perm (lib.words prompt)) :
    b.lookup floats c s { q with prompt := prompt } = b.lookup floats c s q := by
  have hnone (q' : GetArgs F) (hfirst : q'.exactFirst = q.exactFirst) :
      Backend.exactText c s q' = none := by
    rw [Backend.exactText, hfirst]
    rcases hexact with hexact | hexact
    · rw [hexact]
      rfl
    · rw [hexact]
      simp
  have hembed : b.embed prompt = b.embed q.prompt := by
    rw [Backend.embed, Backend.embed, hencode, MockEmbedder.encode_eq_of_perm lib e digests h]
  simp only [Backend.lookup, hnone q rfl, hnone { q with prompt := prompt } rfl, hembed]
  rfl

end KacheDB
