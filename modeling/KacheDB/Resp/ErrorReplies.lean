import KacheDB.Resp.Decoding

/-!
# Error replies inside a frame

A read that meets an error element raises where it stands.  Nothing reads the elements behind it,
so that they are taken for the next reply.  `keepsBoundary_iff` says when a frame with an error
in it is consumed as a whole: exactly if the error is the last thing in it (`ErrorLast`).
-/

namespace KacheDB

open Foundation

namespace Reply

mutual

/-- The decoder knows all elements, and their texts are UTF-8. -/
def wellFormed : Reply → Bool
  | .simple line => (decodeUtf8 line.bytes).isSome
  | .error line => (decodeUtf8 line.bytes).isSome
  | .array items => wellFormedList items
  | .foreign _ _ => false
  | _ => true

/-- All replies are well formed. -/
def wellFormedList : List Reply → Bool
  | [] => true
  | r :: rs => r.wellFormed && wellFormedList rs

end

mutual

/-- Some element is an error. -/
def hasError : Reply → Bool
  | .error _ => true
  | .array items => hasErrorList items
  | _ => false

/-- Some reply has an error. -/
def hasErrorList : List Reply → Bool
  | [] => false
  | r :: rs => r.hasError || hasErrorList rs

end

mutual

/-- The reply is an error, or an array in which only the last item has an error, and this item
has it in the last place too. -/
def errorLast : Reply → Bool
  | .error _ => true
  | .array items => errorLastList items
  | _ => false

/-- Only the last reply has an error, and it has it in the last place. -/
def errorLastList : List Reply → Bool
  | [] => false
  | r :: rs => if r.hasError then rs.isEmpty && r.errorLast else errorLastList rs

end

mutual

/-- The outcome of a well-formed reply that the stack allows: the exception of an error if it has
one, and a value otherwise. -/
theorem outcome_of_wellFormed : ∀ (r : Reply) (limit : ℕ), r.wellFormed = true →
    r.depth ≤ limit →
      if r.hasError then ∃ msg, r.outcome limit = .error (.responseError msg)
      else ∃ v, r.outcome limit = .ok v
  | r, 0, _, h => by cases r <;> simp [depth] at h
  | .simple line, limit + 1, hwf, _ => by
    obtain ⟨s, hs⟩ := Option.isSome_iff_exists.mp (by simpa [wellFormed] using hwf)
    refine ⟨.str s, ?_⟩
    simp [outcome, lineText, hs, Except.map]
  | .error line, limit + 1, hwf, _ => by
    obtain ⟨s, hs⟩ := Option.isSome_iff_exists.mp (by simpa [wellFormed] using hwf)
    refine ⟨s, ?_⟩
    simp [outcome, lineText, hs, Except.bind]
  | .integer n, limit + 1, _, _ => ⟨.int n, rfl⟩
  | .bulk data, limit + 1, _, _ => ⟨.bytes data, rfl⟩
  | .nullBulk, limit + 1, _, _ => ⟨.none, rfl⟩
  | .nullArray, limit + 1, _, _ => ⟨.none, rfl⟩
  | .null, limit + 1, _, _ => ⟨.none, rfl⟩
  | .array items, limit + 1, hwf, h => by
    have hd : depthList items ≤ limit := by simpa [depth] using h
    have hlist := outcomeList_of_wellFormed items limit (by simpa [wellFormed] using hwf) hd
    rw [hasError, outcome]
    split_ifs at hlist ⊢ with herr
    · obtain ⟨msg, hmsg⟩ := hlist
      exact ⟨msg, by rw [hmsg]; rfl⟩
    · obtain ⟨vs, hvs⟩ := hlist
      exact ⟨.list vs, by rw [hvs]; rfl⟩
  | .foreign _ _, _ + 1, hwf, _ => by simp [wellFormed] at hwf

/-- The same for the items of an array. -/
theorem outcomeList_of_wellFormed : ∀ (rs : List Reply) (limit : ℕ), wellFormedList rs = true →
    depthList rs ≤ limit →
      if hasErrorList rs then ∃ msg, outcomeList limit rs = .error (.responseError msg)
      else ∃ vs, outcomeList limit rs = .ok vs
  | [], limit, _, _ => ⟨[], by rw [outcomeList]⟩
  | r :: rs, limit, hwf, h => by
    rw [depthList, max_le_iff] at h
    rw [wellFormedList, Bool.and_eq_true] at hwf
    have hr := outcome_of_wellFormed r limit hwf.1 h.1
    have hrs := outcomeList_of_wellFormed rs limit hwf.2 h.2
    rw [hasErrorList]
    cases herr : r.hasError with
    | true =>
      rw [herr, if_pos rfl] at hr
      obtain ⟨msg, hmsg⟩ := hr
      exact ⟨msg, outcomeList_cons_of_error hmsg rs⟩
    | false =>
      rw [herr, if_neg Bool.false_ne_true] at hr
      obtain ⟨v, hv⟩ := hr
      rw [outcomeList_cons_of_ok hv, Bool.false_or]
      split_ifs at hrs ⊢
      · obtain ⟨msg, hmsg⟩ := hrs
        exact ⟨msg, by rw [hmsg]; rfl⟩
      · obtain ⟨vs, hvs⟩ := hrs
        exact ⟨v :: vs, by rw [hvs]; rfl⟩

end

mutual

/-- A reply with an error is consumed as a whole exactly if the error is its last element. -/
theorem leftover_eq_nil_iff : ∀ (r : Reply) (limit : ℕ), r.wellFormed = true →
    r.hasError = true → r.depth ≤ limit → (r.leftover limit = [] ↔ r.errorLast = true)
  | r, 0, _, _, h => by cases r <;> simp [depth] at h
  | .error line, limit + 1, _, _, _ => by simp [leftover, errorLast]
  | .array items, limit + 1, hwf, herr, h => by
    rw [leftover, errorLast]
    exact leftoverList_eq_nil_iff items limit (by simpa [wellFormed] using hwf)
      (by simpa [hasError] using herr) (by simpa [depth] using h)
  | .simple _, _ + 1, _, herr, _ | .integer _, _ + 1, _, herr, _ | .bulk _, _ + 1, _, herr, _
  | .nullBulk, _ + 1, _, herr, _ | .nullArray, _ + 1, _, herr, _ | .null, _ + 1, _, herr, _
  | .foreign _ _, _ + 1, _, herr, _ => by simp [hasError] at herr

/-- The same for the items of an array. -/
theorem leftoverList_eq_nil_iff : ∀ (rs : List Reply) (limit : ℕ), wellFormedList rs = true →
    hasErrorList rs = true → depthList rs ≤ limit →
      (leftoverList limit rs = [] ↔ errorLastList rs = true)
  | [], _, _, herr, _ => by simp [hasErrorList] at herr
  | r :: rs, limit, hwf, herr, h => by
    rw [depthList, max_le_iff] at h
    rw [wellFormedList, Bool.and_eq_true] at hwf
    have hr := outcome_of_wellFormed r limit hwf.1 h.1
    rw [errorLastList]
    cases hfirst : r.hasError with
    | true =>
      rw [hfirst, if_pos rfl] at hr
      obtain ⟨msg, hmsg⟩ := hr
      have hlast := leftover_eq_nil_iff r limit hwf.1 hfirst h.1
      -- the items behind the error are not read
      have hrest : encodeList rs = [] ↔ rs = [] := by
        rw [encodeList_eq_flatMap, List.flatMap_eq_nil_iff]
        constructor
        · intro hnil
          exact List.eq_nil_iff_forall_not_mem.mpr fun r' hr' => r'.encode_ne_nil (hnil r' hr')
        · rintro rfl r' hr'
          cases hr'
      rw [leftoverList_cons_of_error hmsg, List.append_eq_nil_iff, hlast, hrest, if_pos rfl,
        Bool.and_eq_true, List.isEmpty_iff, and_comm]
    | false =>
      rw [hfirst, if_neg Bool.false_ne_true] at hr
      obtain ⟨v, hv⟩ := hr
      have hrs : hasErrorList rs = true := by simpa [hasErrorList, hfirst] using herr
      rw [leftoverList_cons_of_ok hv, if_neg Bool.false_ne_true]
      exact leftoverList_eq_nil_iff rs limit hwf.2 hrs h.2

end

end Reply

/-- A read of this reply, in front of further replies, raises `ResponseError` and leaves exactly
the further replies unread: with either reader, from any well-formed state of it, and for any
cutting into chunks. -/
def KeepsBoundary (limit : ℕ) (reply : Reply) (following : List Reply) : Prop :=
  ∀ read ∈ [RespReader.readResponse limit, AsyncRespReader.readResponse limit],
    ∀ (r : RespReader) (chunks : List Chunk), respBuffer.Ok r →
      r.unread (chunks.map .chunk) = reply.encode ++ Reply.encodeList following →
        (∃ msg, (read r (chunks.map .chunk)).1 = .error (.responseError msg)) ∧
          (read r (chunks.map .chunk)).2.1.unread (read r (chunks.map .chunk)).2.2 =
            Reply.encodeList following

/-- **When an error reply keeps the frame boundaries.**  A read of a well-formed reply with an
error in it raises `ResponseError` and consumes exactly the bytes of this reply if and only if
the error is its last element. -/
theorem keepsBoundary_iff {limit : ℕ} {reply : Reply} (hwf : reply.wellFormed = true)
    (herr : reply.hasError = true) (hstack : reply.depth ≤ limit) (following : List Reply) :
    KeepsBoundary limit reply following ↔ reply.errorLast = true := by
  have hlast := Reply.leftover_eq_nil_iff reply limit hwf herr hstack
  have hout := Reply.outcome_of_wellFormed reply limit hwf hstack
  rw [if_pos herr] at hout
  obtain ⟨msg, hmsg⟩ := hout
  -- what a read of the reply does
  have hread {r : RespReader} {chunks : List Chunk} (hok : respBuffer.Ok r)
      (hunread : r.unread (chunks.map .chunk) = reply.encode ++ Reply.encodeList following) :
      (r.readResponse limit (chunks.map .chunk)).1 = .error (.responseError msg) ∧
        (r.readResponse limit (chunks.map .chunk)).2.1.unread
            (r.readResponse limit (chunks.map .chunk)).2.2 =
          reply.leftover limit ++ Reply.encodeList following := by
    obtain ⟨hres, -, hleft, -⟩ :=
      RespReader.readResponse_quiet hok (Feed.quiet_map_chunk chunks) hunread
    exact ⟨hres.trans hmsg, hleft⟩
  constructor
  · intro h
    have hne : reply.encode ++ Reply.encodeList following ≠ [] := by
      intro hnil
      exact reply.encode_ne_nil (List.append_eq_nil_iff.mp hnil).1
    have hok : respBuffer.Ok RespReader.init := ⟨le_rfl, by simp [RespReader.init]⟩
    have hunread : RespReader.init.unread
        ([⟨reply.encode ++ Reply.encodeList following, hne⟩].map .chunk) =
          reply.encode ++ Reply.encodeList following := by
      rw [RespReader.unread_init_map_chunk, List.flatMap_singleton]
    obtain ⟨-, hleft⟩ := h _ List.mem_cons_self _ _ hok hunread
    have hnil := (hread hok hunread).2.symm.trans hleft
    exact hlast.mp (List.append_left_eq_self.mp hnil)
  · intro h read hmem r chunks hok hunread
    obtain ⟨hres, hleft⟩ := hread hok hunread
    rw [hlast.mpr h, List.nil_append] at hleft
    rcases List.mem_pair.mp hmem with rfl | rfl
    · exact ⟨⟨msg, hres⟩, hleft⟩
    · exact ⟨⟨msg, hres⟩, hleft⟩

/-- An array that ends with an error. -/
theorem keepsBoundary_last :
    KeepsBoundary 2 (.array [.integer 1, .error ⟨[69], by decide⟩]) [.null] ↔
      (Reply.array [.integer 1, .error ⟨[69], by decide⟩]).errorLast = true :=
  keepsBoundary_iff (by decide) (by decide) (by decide) [.null]

/-- The error of this array is read, and then its second item is read as the next reply. -/
theorem not_keepsBoundary_first :
    ¬ KeepsBoundary 2 (.array [.error ⟨[69], by decide⟩, .integer 1]) [.null] := by
  intro h
  have hok : respBuffer.Ok RespReader.init := ⟨le_rfl, by simp [RespReader.init]⟩
  obtain ⟨-, hleft⟩ := h _ List.mem_cons_self .init
    [⟨[42, 50, 13, 10, 45, 69, 13, 10, 58, 49, 13, 10, 95, 13, 10], by decide⟩] hok (by decide)
  exact absurd hleft (by decide)

end KacheDB
