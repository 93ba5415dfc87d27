import KacheDB.Semantic.Deletion

/-!
# Workspaces

Two caches with different workspaces on one server are to have nothing to do with each other.
The key of an exact copy is the workspace and the prompt with a colon between them, and neither
is kept from having a colon of its own: the workspaces `a` and `a:b` share the key `doc:a:b:c`.
`isolated_iff` says which pairs of workspaces share no key, and that these are the pairs for
which the exact step of the one cache does not depend on the calls of `set` on the other.
-/

namespace KacheDB

open Foundation Backend

variable {F : Type}

/-- A step of a run of two caches on one server: a call on the first or on the second cache, or
a value that something else writes or removes. -/
inductive SharedOp : Type where
  | first (op : CacheOp)
  | second (op : CacheOp)
  | other (key : String) (value : Option Bytes)

/-- A call of `set` on the first cache. -/
def SharedOp.isFirstSet : SharedOp → Bool
  | .first (.set _) => true
  | _ => false

/-- The state after one step. -/
def sharedStep (b₁ b₂ : Backend F) (c₁ c₂ : SemanticCache F) (s : Server) : SharedOp → Server
  | .first op => b₁.step c₁ s op
  | .second op => b₂.step c₂ s op
  | .other key value => s.setValue key (value.map fun v => ⟨v, none⟩)

/-- Histories that differ in the calls of `set` on the first cache only give the same answers to
the exact step of `get` on the second cache. -/
def Isolated (b₁ b₂ : Backend F) (floats : Floats F) (c₁ c₂ : SemanticCache F) (start : Server) :
    Prop :=
  ∀ h h' : List SharedOp,
    (h.filter fun op => !op.isFirstSet) = (h'.filter fun op => !op.isFirstSet) →
    ∀ p, ((c₂.exactMatch floats p true).run (b₂.handle none)
        (h.foldl (sharedStep b₁ b₂ c₁ c₂) start)).1 =
      ((c₂.exactMatch floats p true).run (b₂.handle none)
        (h'.foldl (sharedStep b₁ b₂ c₁ c₂) start)).1

/-- Neither workspace is the other one with a colon behind it and then a text that does not begin
with white space. -/
def Separated (w₁ w₂ : String) : Prop :=
  ∀ x : String, w₁ = w₂ ++ ":" ++ x ∨ w₂ = w₁ ++ ":" ++ x →
    ∃ ch, x.toList.head? = some ch ∧ isWhitespace ch = true

/-! ## Shared keys -/

section Keys

variable {c₁ c₂ : SemanticCache F}

lemma toList_docKey (c : SemanticCache F) (x : String) :
    (c.docKey x).toList = "doc:".toList ++ (c.workspace.toList ++ ':' :: x.toList) := by
  simp [SemanticCache.docKey]

/-- If one key is the other, the longer workspace is the shorter one with a colon and the front
of a prompt behind it. -/
lemma not_docKey_eq_of_append {x y : String} {ws : List Char} (hne : c₁.workspace ≠ c₂.workspace)
    (hsep : Separated c₁.workspace c₂.workspace)
    (hws : c₂.workspace.toList = c₁.workspace.toList ++ ws) :
    ':' :: (strip x).toList ≠ ws ++ ':' :: (strip y).toList := by
  intro heq
  cases ws with
  | nil => exact hne (String.toList_inj.mp (by simpa using hws.symm))
  | cons first rest =>
    rw [List.cons_append, List.cons.injEq] at heq
    obtain ⟨rfl, htail⟩ := heq
    have hws' : c₂.workspace = c₁.workspace ++ ":" ++ String.ofList rest := by
      apply String.toList_inj.mp
      simp [hws]
    obtain ⟨ch, hch, hspace⟩ := hsep _ (.inr hws')
    have hhead : (strip x).toList.head? = some ch := by
      rw [htail, List.head?_append]
      simp only [String.toList_ofList] at hch
      rw [hch]
      rfl
    rw [strip, String.toList_ofList] at hhead
    rw [head?_stripChars hhead] at hspace
    cases hspace

/-- Separated workspaces share no key. -/
lemma docKey_ne (hne : c₁.workspace ≠ c₂.workspace)
    (hsep : Separated c₁.workspace c₂.workspace) (x y : String) :
    c₁.docKey (strip x) ≠ c₂.docKey (strip y) := by
  intro heq
  have hchars := congrArg String.toList heq
  rw [toList_docKey, toList_docKey] at hchars
  rcases List.append_eq_append_iff.mp (List.append_cancel_left hchars) with
    ⟨ws, hws, htail⟩ | ⟨ws, hws, htail⟩
  · exact not_docKey_eq_of_append hne hsep hws htail
  · refine not_docKey_eq_of_append hne.symm (fun x hx => hsep x hx.symm) hws htail

/-- A text with a colon behind it is no shorter for being stripped, unless it begins with white
space. -/
lemma strip_colon {x : String} (hx : ∀ ch ∈ x.toList.head?, isWhitespace ch = false) :
    strip (x ++ ":") = x ++ ":" := by
  have hself : stripChars (x.toList ++ [':']) = x.toList ++ [':'] := by
    apply stripChars_eq_self
    · intro ch hch
      rw [List.head?_append] at hch
      cases hhead : x.toList.head? with
      | none =>
        rw [hhead] at hch
        obtain rfl : ':' = ch := by simpa using hch
        decide
      | some first =>
        rw [hhead] at hch
        obtain rfl : first = ch := by simpa using hch
        exact hx first hhead
    · intro ch hch
      obtain rfl : ':' = ch := by simpa using hch
      decide
  apply String.toList_inj.mp
  rw [strip, String.toList_append]
  simpa using hself

/-- Workspaces that are not separated share a key. -/
lemma exists_docKey_eq (hsep : ¬ Separated c₁.workspace c₂.workspace) :
    ∃ x y, c₁.docKey (strip x) = c₂.docKey (strip y) := by
  unfold Separated at hsep
  push Not at hsep
  obtain ⟨x, hx, hspace⟩ := hsep
  have hcolon : strip (x ++ ":") = x ++ ":" :=
    strip_colon fun ch hch => by simpa using hspace ch hch
  have hempty : strip "" = "" := rfl
  rcases hx with hx | hx
  · refine ⟨"", x ++ ":", ?_⟩
    rw [hcolon, hempty, SemanticCache.docKey, SemanticCache.docKey, hx]
    simp [String.append_assoc]
  · refine ⟨x ++ ":", "", ?_⟩
    rw [hcolon, hempty, SemanticCache.docKey, SemanticCache.docKey, hx]
    simp [String.append_assoc]

end Keys

/-! ## What the second cache sees -/

section Runs

variable {b₁ b₂ : Backend F} {floats : Floats F} {c₁ c₂ : SemanticCache F} {s s' : Server}

/-- The exact copies of the second cache are the same in both states. -/
def SameCopies (c₂ : SemanticCache F) (s s' : Server) : Prop :=
  ∀ p, s.kv (c₂.docKey (strip p)) = s'.kv (c₂.docKey (strip p))

lemma kv_setValue_congr {key k : String} {stored : Option Stored} (h : s.kv k = s'.kv k) :
    (s.setValue key stored).kv k = (s'.setValue key stored).kv k := by
  rw [Server.kv_setValue, Server.kv_setValue, Function.update_apply, Function.update_apply, h]

/-- A call on a cache writes the same in both states. -/
lemma kv_step_congr {b : Backend F} {c : SemanticCache F} {k : String} (op : CacheOp)
    (h : s.kv k = s'.kv k) : (b.step c s op).kv k = (b.step c s' op).kv k := by
  cases op with
  | delete prompt => exact h
  | set r =>
    rw [step_set, step_set, kv_withItem, kv_withItem, withCopy, withCopy]
    split_ifs
    · exact kv_setValue_congr h
    · exact h

/-- A step that is no call of `set` on the first cache keeps the copies the same. -/
lemma SameCopies.step (h : SameCopies c₂ s s') (op : SharedOp) :
    SameCopies c₂ (sharedStep b₁ b₂ c₁ c₂ s op) (sharedStep b₁ b₂ c₁ c₂ s' op) := by
  intro p
  cases op with
  | first op => exact kv_step_congr op (h p)
  | second op => exact kv_step_congr op (h p)
  | other key value => exact kv_setValue_congr (h p)

/-- A call of `set` on the first cache does not touch them. -/
lemma SameCopies.firstSet (hne : c₁.workspace ≠ c₂.workspace)
    (hsep : Separated c₁.workspace c₂.workspace) (h : SameCopies c₂ s s') (r : SetArgs) :
    SameCopies c₂ (b₁.step c₁ s (.set r)) s' := by
  intro p
  rw [← h p, step_set, kv_withItem, withCopy]
  split_ifs
  · exact Function.update_of_ne (docKey_ne hne hsep _ _).symm _ _
  · rfl

/-- The run lemma: a history leaves the same copies as its steps that are no calls of `set` on
the first cache. -/
lemma SameCopies.run (b₁ b₂ : Backend F) (hne : c₁.workspace ≠ c₂.workspace)
    (hsep : Separated c₁.workspace c₂.workspace) (h : SameCopies c₂ s s')
    (history : List SharedOp) :
    SameCopies c₂ (history.foldl (sharedStep b₁ b₂ c₁ c₂) s)
      ((history.filter fun op => !op.isFirstSet).foldl (sharedStep b₁ b₂ c₁ c₂) s') := by
  induction history generalizing s s' with
  | nil => exact h
  | cons op history ih =>
    cases hop : op.isFirstSet with
    | true =>
      rw [List.filter_cons_of_neg (by simp [hop])]
      obtain ⟨r, rfl⟩ : ∃ r, op = .first (.set r) := by
        unfold SharedOp.isFirstSet at hop
        split at hop
        · exact ⟨_, rfl⟩
        · cases hop
      exact ih (h.firstSet hne hsep r)
    | false =>
      rw [List.filter_cons_of_pos (by simp [hop])]
      exact ih (h.step op)

/-- The exact step gives the same answer. -/
lemma SameCopies.exactMatch (h : SameCopies c₂ s s') (p : String) :
    ((c₂.exactMatch floats p true).run (b₂.handle none) s).1 =
      ((c₂.exactMatch floats p true).run (b₂.handle none) s').1 := by
  have hrun (s : Server) := run_exactMatch b₂ floats c₂ none s { prompt := p }
  have htext : exactText c₂ s { prompt := p } = exactText c₂ s' { prompt := p } := by
    unfold exactText Server.text
    rw [h p]
  exact (congrArg Prod.fst (hrun s)).trans
    ((by rw [htext] : _ = _).trans (congrArg Prod.fst (hrun s')).symm)

/-- If a prompt of the first cache has the key of a prompt of the second one, the second cache
answers with what the first one has been given. -/
lemma exactMatch_of_docKey_eq (floats : Floats F) (start : Server) (h₁ : c₁.workspace ≠ "")
    (h₂ : c₂.workspace ≠ "") {x y : String}
    (hkey : c₁.docKey (strip x) = c₂.docKey (strip y)) (response : String) :
    ((c₂.exactMatch floats y true).run (b₂.handle none)
      ([SharedOp.first (.set { prompt := x, response := response })].foldl
        (sharedStep b₁ b₂ c₁ c₂) start)).1 = .ok (some
          { key := strip y, similarity := floats.one, value := response, isExact := true }) := by
  have htext : exactText c₂ (b₁.step c₁ start (.set { prompt := x, response := response }))
      { prompt := y } = some response := by
    have hcopies : c₁.copies { prompt := x, response := response } = true := by
      simpa [SemanticCache.copies] using h₁
    have hflag : (c₂.workspace != "") = true := by simpa using h₂
    simp only [exactText, hflag, Bool.and_self, if_true, Server.text, step_set, kv_withItem,
      withCopy, hcopies, hkey, Server.kv_setValue, Function.update_self, Option.bind_some,
      decodeUtf8_encodeUtf8]
  have hrun := run_exactMatch b₂ floats c₂ none
    (b₁.step c₁ start (.set { prompt := x, response := response })) { prompt := y }
  rw [htext] at hrun
  exact congrArg Prod.fst hrun

end Runs

/-- **Two caches are isolated exactly if their workspaces are separated.** -/
theorem isolated_iff (b₁ b₂ : Backend F) (floats : Floats F) (c₁ c₂ : SemanticCache F)
    (start : Server) (h₁ : c₁.workspace ≠ "") (h₂ : c₂.workspace ≠ "")
    (hne : c₁.workspace ≠ c₂.workspace) :
    Isolated b₁ b₂ floats c₁ c₂ start ↔ Separated c₁.workspace c₂.workspace := by
  constructor
  · intro hiso
    by_contra hsep
    obtain ⟨x, y, hkey⟩ := exists_docKey_eq hsep
    -- two calls that differ in the response only
    have heq := hiso [.first (.set { prompt := x, response := "1" })]
      [.first (.set { prompt := x, response := "2" })] rfl y
    rw [exactMatch_of_docKey_eq floats start h₁ h₂ hkey,
      exactMatch_of_docKey_eq floats start h₁ h₂ hkey] at heq
    have hvalue := congrArg SearchResult.value (Option.some.inj (Except.ok.inj heq))
    have hdiff : ("1" : String) ≠ "2" := by decide
    exact hdiff hvalue
  · intro hsep h h' hfilter p
    have hstart : SameCopies c₂ start start := fun _ => rfl
    have hrun := hstart.run b₁ b₂ hne hsep h
    have hrun' := hstart.run b₁ b₂ hne hsep h'
    rw [← hfilter] at hrun'
    rw [hrun.exactMatch p, hrun'.exactMatch p]

/-- The workspaces `a` and `b` are separated. -/
theorem isolated_iff_a_b :
    ("a" ≠ "" ∧ "b" ≠ "" ∧ "a" ≠ "b") ∧
      (Isolated emptySearch emptySearch ratFloats { similarityThreshold := 0, workspace := "a" }
        { similarityThreshold := 0, workspace := "b" } (.start fun _ => none) ↔
          Separated "a" "b") :=
  ⟨by decide, isolated_iff emptySearch emptySearch ratFloats
    { similarityThreshold := 0, workspace := "a" } { similarityThreshold := 0, workspace := "b" }
    (.start fun _ => none) (by decide) (by decide) (by decide)⟩

/-- The workspaces `a` and `a:b` are not. -/
theorem not_isolated :
    ¬ Isolated emptySearch emptySearch ratFloats { similarityThreshold := 0, workspace := "a" }
      { similarityThreshold := 0, workspace := "a:b" } (.start fun _ => none) := by
  intro hiso
  have heq := hiso [.first (.set { prompt := "b:c", response := "1" })] [] rfl "c"
  cases heq

end KacheDB
