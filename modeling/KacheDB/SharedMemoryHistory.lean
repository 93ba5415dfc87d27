import KacheDB.SharedMemory

/-!
# Earlier calls of a process

Whether `read_tensor` gives the same after earlier calls of the process as in a fresh one.  The
mapping of a region is remembered by the path alone, so that the first call for a region decides
how many bytes every later one sees (`attachShm_afterCalls`).

`readTensor_history_iff` says exactly when this does not matter: if no earlier call has mapped the
region, or if the call itself could map it and the two mappings end at the same place, or both in
front of the block, or both behind its header, and both in front of the end of the payload or both
behind it.
-/

namespace KacheDB

open Foundation KacheDBMemoryManager

/-- A call of the process. -/
inductive ShmCall : Type where
  | attach (coreId : ℕ) (sizeBytes : ℤ)
  | read (coreId : ℕ) (byteOffset sizeBytes : ℤ)

/-- The core and the size of a call. -/
def ShmCall.args : ShmCall → ℕ × ℤ
  | .attach coreId sizeBytes => (coreId, sizeBytes)
  | .read coreId _ sizeBytes => (coreId, sizeBytes)

/-- The mappings after one call. -/
def ShmCall.step (regions : Regions) (shmCache : Dict String Mapping) :
    ShmCall → Dict String Mapping
  | .attach coreId sizeBytes => (attachShm regions shmCache coreId sizeBytes).2
  | .read coreId byteOffset sizeBytes =>
    (readTensor regions shmCache coreId byteOffset sizeBytes).2

/-- The mappings of a process after some calls. -/
def afterCalls (regions : Regions) (calls : List ShmCall) : Dict String Mapping :=
  calls.foldl (ShmCall.step regions) .empty

/-- What the first of the calls for the region of this core has mapped that could map it. -/
def firstMapping (regions : Regions) (calls : List ShmCall) (coreId : ℕ) : Option Mapping :=
  calls.findSome? fun call =>
    if shmPath call.args.1 = shmPath coreId then
      (mapRegion regions call.args.1 call.args.2).toOption
    else none

/-! ## What is remembered -/

section Remembered

variable {regions : Regions}

/-- The key under which a mapping is remembered. -/
def regionKey (args : ℕ × ℤ) : String :=
  shmPath args.1

/-- The mapping that a call makes if none is remembered. -/
def mapArgs (regions : Regions) (args : ℕ × ℤ) : Except Exc Mapping :=
  mapRegion regions args.1 args.2

/-- Attaching is a request for a remembered mapping. -/
lemma attachShm_eq_request (shmCache : Dict String Mapping) (coreId : ℕ) (sizeBytes : ℤ) :
    attachShm regions shmCache coreId sizeBytes =
      Memo.request regionKey (mapArgs regions) shmCache (coreId, sizeBytes) := by
  simp only [attachShm, Memo.request, regionKey, mapArgs]
  cases shmCache.get (shmPath coreId) with
  | some shm => rfl
  | none =>
    cases hmap : mapRegion regions coreId sizeBytes with
    | error e => rfl
    | ok shm => rfl

/-- Reading leaves the mappings that attaching leaves. -/
lemma readTensor_snd (shmCache : Dict String Mapping) (coreId : ℕ) (byteOffset sizeBytes : ℤ) :
    (readTensor regions shmCache coreId byteOffset sizeBytes).2 =
      (attachShm regions shmCache coreId sizeBytes).2 := by
  unfold readTensor
  rcases attachShm regions shmCache coreId sizeBytes with ⟨e | shm, shmCache'⟩
  · rfl
  · rfl

/-- The mappings after some calls are what has been remembered. -/
lemma afterCalls_eq_run (calls : List ShmCall) :
    afterCalls regions calls =
      Memo.run regionKey (mapArgs regions) .empty (calls.map ShmCall.args) := by
  have hstep (shmCache : Dict String Mapping) (call : ShmCall) : call.step regions shmCache =
      (Memo.request regionKey (mapArgs regions) shmCache call.args).2 := by
    cases call with
    | attach coreId sizeBytes => rw [ShmCall.step, attachShm_eq_request, ShmCall.args]
    | read coreId byteOffset sizeBytes =>
      rw [ShmCall.step, readTensor_snd, attachShm_eq_request, ShmCall.args]
  rw [afterCalls, Memo.run, List.foldl_map]
  congr 1
  funext shmCache call
  exact hstep shmCache call

/-- What attaching gives after some calls: the mapping of the first of them that has mapped the
region, if there is one. -/
lemma attachShm_afterCalls (calls : List ShmCall) (coreId : ℕ) (sizeBytes : ℤ) :
    (attachShm regions (afterCalls regions calls) coreId sizeBytes).1 =
      match firstMapping regions calls coreId with
      | some shm => .ok shm
      | none => mapRegion regions coreId sizeBytes := by
  have hfirst : Memo.first regionKey (mapArgs regions) (calls.map ShmCall.args) (shmPath coreId) =
      firstMapping regions calls coreId := by
    rw [Memo.first, List.findSome?_map]
    rfl
  have hkey : regionKey (coreId, sizeBytes) = shmPath coreId := rfl
  rw [attachShm_eq_request, afterCalls_eq_run, Memo.request_run, hkey, hfirst]
  cases firstMapping regions calls coreId with
  | some shm => rfl
  | none => rfl

end Remembered

/-! ## What a mapping shows of a block -/

section Outcomes

variable {file : Bytes} {offset length : ℕ}

/-- The first character of the text of a `ValueError`. -/
def initial : Except Exc NDArray → Option Char
  | .error (.valueError text) => text.toList.head?
  | _ => none

/-- A mapping that ends in front of the block. -/
lemma readMapped_before (hlength : length ≤ file.length) (h : length < offset) :
    readMapped (file.take length) offset = .error (.valueError "seek out of range") := by
  rw [readMapped, if_pos]
  rw [List.length_take]
  omega

/-- A mapping that ends within the header. -/
lemma readMapped_within (hlength : length ≤ file.length) (hle : offset ≤ length)
    (h : length < offset + 64) :
    readMapped (file.take length) offset =
      .error (.valueError
        ("Descriptor requires 64 bytes, got " ++ toString (length - offset))) := by
  have hlen : (window (file.take length) offset 64).length = length - offset := by
    rw [window, List.length_take, List.length_drop, List.length_take]
    omega
  rw [readMapped, if_neg (by rw [List.length_take]; omega), Int.toNat_natCast, readHeader,
    TensorBlockDescriptor.fromBytes, dif_pos (by omega), hlen]

/-- A mapping that shows the header, which the reader does not accept. -/
lemma readMapped_rejected (hlength : length ≤ file.length) (hle : offset + 64 ≤ length) {e : Exc}
    (hheader : readHeader (window file offset 64) = .error e) :
    readMapped (file.take length) offset = .error e := by
  rw [readMapped, if_neg (by rw [List.length_take]; omega), Int.toNat_natCast, window_take hle,
    hheader]

/-- A mapping that shows the header and the payload, or the header but not all of the payload. -/
lemma readMapped_accepted (hlength : length ≤ file.length) (hle : offset + 64 ≤ length)
    {dtype : NumpyDType} {count : ℕ}
    (hheader : readHeader (window file offset 64) = .ok (dtype, count)) :
    (length < offset + 64 + count * dtype.itemSize ∧ readMapped (file.take length) offset =
        .error (.valueError "buffer is smaller than requested size")) ∨
      (offset + 64 + count * dtype.itemSize ≤ length ∧
        ∃ arr, readMapped (file.take length) offset = .ok arr ∧ arr.dtype = dtype ∧
          arr.size = count ∧ arr.data = window file (offset + 64) (count * dtype.itemSize)) := by
  have hlen : (file.take length).length = length := List.length_take_of_le hlength
  rw [readMapped, if_neg (by rw [hlen]; omega), Int.toNat_natCast, window_take hle, hheader]
  simp only [frombuffer]
  rw [if_neg (by rw [hlen]; omega)]
  by_cases hfits : offset + 64 + count * dtype.itemSize ≤ length
  · rw [dif_pos (by rwa [hlen])]
    exact .inr ⟨hfits, _, rfl, rfl, rfl, window_take hfits⟩
  · rw [dif_neg (by rwa [hlen])]
    exact .inl ⟨not_le.mp hfits, rfl⟩

/-- A decimal number begins with a digit. -/
lemma head?_toString (n : ℕ) : ∃ c, (toString n).toList.head? = some c ∧ c.isDigit = true := by
  have hlist : (toString n).toList = Nat.toDigits 10 n := Nat.toList_repr
  rw [hlist]
  rcases hdigits : Nat.toDigits 10 n with _ | ⟨c, cs⟩
  · exact absurd hdigits (by simp)
  · have hmem : c ∈ Nat.toDigits 10 n := by
      rw [hdigits]
      exact List.mem_cons_self
    exact ⟨c, rfl, Nat.isDigit_of_mem_toDigits (by norm_num) (by norm_num) hmem⟩

/-- Every exception about a header is a `ValueError`, and its text begins with `D` if the header
is too short, and with `I` or a digit if not. -/
lemma initial_readHeader {headerBytes : Bytes} {e : Exc} (h : readHeader headerBytes = .error e) :
    (headerBytes.length < 64 ∧ initial (.error e) = some 'D') ∨
      (64 ≤ headerBytes.length ∧ ∃ c, initial (.error e) = some c ∧
        (c = 'I' ∨ c.isDigit = true)) := by
  rw [readHeader, TensorBlockDescriptor.fromBytes] at h
  split_ifs at h with hlen
  · obtain rfl := Except.error.inj h
    exact .inl ⟨hlen, by simp [initial]⟩
  · simp only at h
    refine .inr ⟨not_lt.mp hlen, ?_⟩
    split_ifs at h with hvalid
    · split at h
      · obtain rfl := Except.error.inj h
        obtain ⟨c, hc, hdigit⟩ := head?_toString (UInt8.ofNat (ofLittleEndian
          (window headerBytes 14 1))).toNat
        refine ⟨c, ?_, .inr hdigit⟩
        simp only [initial, String.toList_append, List.head?_append]
        rw [hc, Option.some_or]
      · cases h
    · obtain rfl := Except.error.inj h
      exact ⟨'I', by simp [initial], .inl rfl⟩

/-- What the text of the exception says of where the mapping ends. -/
lemma initial_readMapped (hlength : length ≤ file.length) :
    (initial (readMapped (file.take length) offset) = some 's' ↔ length < offset) ∧
      (initial (readMapped (file.take length) offset) = some 'D' ↔
        offset ≤ length ∧ length < offset + 64) := by
  by_cases hbefore : length < offset
  · rw [readMapped_before hlength hbefore]
    have hinitial : initial (.error (.valueError "seek out of range")) = some 's' := by
      simp [initial]
    rw [hinitial]
    exact ⟨iff_of_true rfl hbefore, iff_of_false (by decide) (by omega)⟩
  · by_cases hwithin : length < offset + 64
    · rw [readMapped_within hlength (by omega) hwithin]
      have hinitial (t : String) : initial (.error (.valueError
          ("Descriptor requires 64 bytes, got " ++ t))) = some 'D' := by
        simp [initial]
      rw [hinitial]
      exact ⟨iff_of_false (by decide) hbefore, iff_of_true rfl ⟨by omega, hwithin⟩⟩
    · have hne : initial (readMapped (file.take length) offset) ≠ some 's' ∧
          initial (readMapped (file.take length) offset) ≠ some 'D' := by
        have hlen : (window file offset 64).length = 64 := length_window (by omega)
        cases hheader : readHeader (window file offset 64) with
        | error e =>
          rw [readMapped_rejected hlength (by omega) hheader]
          obtain ⟨hshort, -⟩ | ⟨-, c, hc, hI | hdigit⟩ := initial_readHeader hheader
          · omega
          · rw [hc, hI]
            decide
          · rw [hc]
            refine ⟨fun heq => ?_, fun heq => ?_⟩
            · obtain rfl := Option.some.inj heq
              exact absurd hdigit (by decide)
            · obtain rfl := Option.some.inj heq
              exact absurd hdigit (by decide)
        | ok found =>
          rcases readMapped_accepted hlength (by omega) hheader with ⟨-, hread⟩ | ⟨-, arr, hread, -⟩
          · rw [hread]
            simp [initial]
          · rw [hread]
            simp [initial]
      exact ⟨iff_of_false hne.1 hbefore, iff_of_false hne.2 (by omega)⟩

end Outcomes

/-! ## Two mappings of one region -/

/-- Two mappings of these lengths show the same of the block at an offset: they end at the same
place, or both in front of the block, or both behind its header, and if the reader accepts the
header, either both of them show the payload or neither does. -/
def SameReach (file : Bytes) (byteOffset : ℤ) (length length' : ℕ) : Prop :=
  length = length' ∨ byteOffset < 0 ∨ (length < byteOffset ∧ length' < byteOffset) ∨
    (byteOffset + 64 ≤ length ∧ byteOffset + 64 ≤ length' ∧
      ∀ dtype count, readHeader (window file byteOffset.toNat 64) = .ok (dtype, count) →
        (byteOffset + 64 + (count * dtype.itemSize : ℕ) ≤ length ↔
          byteOffset + 64 + (count * dtype.itemSize : ℕ) ≤ length'))

/-- Behind the header, reading gives the same exactly if both mappings show the payload or
neither does. -/
lemma readMapped_shown_iff {file : Bytes} {offset length length' : ℕ} (h : length ≤ file.length)
    (h' : length' ≤ file.length) (hle : offset + 64 ≤ length) (hle' : offset + 64 ≤ length') :
    readMapped (file.take length) offset = readMapped (file.take length') offset ↔
      ∀ dtype count, readHeader (window file offset 64) = .ok (dtype, count) →
        (offset + 64 + count * dtype.itemSize ≤ length ↔
          offset + 64 + count * dtype.itemSize ≤ length') := by
  cases hheader : readHeader (window file offset 64) with
  | error e =>
    rw [readMapped_rejected h hle hheader, readMapped_rejected h' hle' hheader]
    exact iff_of_true rfl fun _ _ hok => by cases hok
  | ok found =>
    obtain ⟨dtype, count⟩ := found
    have hforall : (∀ dtype' count', Except.ok (ε := Exc) (dtype, count) = .ok (dtype', count') →
        (offset + 64 + count' * dtype'.itemSize ≤ length ↔
          offset + 64 + count' * dtype'.itemSize ≤ length')) ↔
        (offset + 64 + count * dtype.itemSize ≤ length ↔
          offset + 64 + count * dtype.itemSize ≤ length') := by
      constructor
      · exact fun hall => hall dtype count rfl
      · intro hiff dtype' count' heq
        obtain ⟨rfl, rfl⟩ := Prod.mk.inj (Except.ok.inj heq)
        exact hiff
    rw [hforall]
    rcases readMapped_accepted h hle hheader with
      ⟨hshort, hread⟩ | ⟨hlong, arr, hread, hdtype, hsize, hdata⟩
    · rcases readMapped_accepted h' hle' hheader with
        ⟨hshort', hread'⟩ | ⟨hlong', arr', hread', -⟩
      · rw [hread, hread']
        exact iff_of_true rfl (by omega)
      · rw [hread, hread']
        exact iff_of_false (by simp) (by omega)
    · rcases readMapped_accepted h' hle' hheader with
        ⟨hshort', hread'⟩ | ⟨hlong', arr', hread', hdtype', hsize', hdata'⟩
      · rw [hread, hread']
        exact iff_of_false (by simp) (by omega)
      · rw [hread, hread']
        refine iff_of_true (congrArg Except.ok ?_) (by omega)
        cases arr
        cases arr'
        simp only at hdtype hsize hdata hdtype' hsize' hdata'
        subst hdtype hsize hdata hdtype' hsize' hdata'
        rfl

/-- Reading gives the same through two mappings exactly if they show the same. -/
lemma readMapped_eq_iff {file : Bytes} {length length' : ℕ} (h : length ≤ file.length)
    (h' : length' ≤ file.length) (byteOffset : ℤ) :
    readMapped (file.take length) byteOffset = readMapped (file.take length') byteOffset ↔
      SameReach file byteOffset length length' := by
  rcases lt_or_ge byteOffset 0 with hneg | hpos
  · have hseek (mem : Bytes) : readMapped mem byteOffset =
        .error (.valueError "seek out of range") := by
      rw [readMapped, if_pos (.inl hneg)]
    exact iff_of_true (by rw [hseek, hseek]) (.inr (.inl hneg))
  · obtain ⟨offset, rfl⟩ := Int.eq_ofNat_of_zero_le hpos
    constructor
    · intro heq
      obtain ⟨hbefore, hwithin⟩ := @initial_readMapped file offset length h
      obtain ⟨hbefore', hwithin'⟩ := @initial_readMapped file offset length' h'
      rw [heq] at hbefore hwithin
      by_cases hs : length < offset
      · have hs' := hbefore'.mp (hbefore.mpr hs)
        exact .inr (.inr (.inl ⟨by omega, by omega⟩))
      · have hs' : ¬ length' < offset := fun h => hs (hbefore.mp (hbefore'.mpr h))
        by_cases hd : length < offset + 64
        · have hd' := hwithin'.mp (hwithin.mpr ⟨by omega, hd⟩)
          rw [readMapped_within h (by omega) hd, readMapped_within h' hd'.1 hd'.2] at heq
          have htext := Exc.valueError.inj (Except.error.inj heq)
          have hrepr : Nat.repr (length - offset) = Nat.repr (length' - offset) :=
            String.append_right_inj _ |>.mp htext
          have hsub : length - offset = length' - offset := by
            have hdigits := congrArg (fun text => Nat.ofDigitChars 10 text.toList 0) hrepr
            simpa [Nat.toList_repr] using hdigits
          exact .inl (by omega)
        · have hshown : offset + 64 ≤ length' := by
            by_contra hlt
            exact hd (hwithin.mp (hwithin'.mpr ⟨not_lt.mp hs', not_le.mp hlt⟩)).2
          refine .inr (.inr (.inr ⟨by omega, by omega, fun dtype count hheader => ?_⟩))
          have hiff := (readMapped_shown_iff h h' (by omega) hshown).mp heq dtype count hheader
          omega
    · rintro (rfl | hneg | ⟨hlt, hlt'⟩ | ⟨hle, hle', hiff⟩)
      · rfl
      · omega
      · rw [readMapped_before h (by omega), readMapped_before h' (by omega)]
      · refine (readMapped_shown_iff h h' (by omega) (by omega)).mpr fun dtype count hheader => ?_
        have := hiff dtype count hheader
        omega

/-- What maps a file maps no more than there is. -/
lemma mapFile_le {file : Bytes} {sizeBytes : ℤ} {length : ℕ}
    (h : mapFile file sizeBytes = .ok length) : length ≤ file.length := by
  unfold mapFile at h
  split_ifs at h
  · obtain rfl := Except.ok.inj h
    exact le_rfl
  · obtain rfl := Except.ok.inj h
    omega

/-- Reading through a mapping never fails as mapping the region does. -/
lemma readMapped_ne_of_mapFile {file : Bytes} {sizeBytes : ℤ} {e : Exc}
    (hmap : mapFile file sizeBytes = .error e) (mem : Bytes) (byteOffset : ℤ) :
    readMapped mem byteOffset ≠ .error e := by
  have hinitial : initial (.error e) = none ∨ initial (.error e) = some 'c' ∨
      initial (.error e) = some 'm' := by
    unfold mapFile at hmap
    split_ifs at hmap <;> obtain rfl := Except.error.inj hmap <;> simp [initial]
  intro h
  unfold readMapped at h
  split_ifs at h with hseek
  · obtain rfl := Except.error.inj h
    simp [initial] at hinitial
  · cases hheader : readHeader (window mem byteOffset.toNat 64) with
    | error e' =>
      rw [hheader] at h
      obtain rfl := Except.error.inj h
      obtain ⟨-, hD⟩ | ⟨-, c, hc, hI | hdigit⟩ := initial_readHeader hheader
      · rw [hD] at hinitial
        simp at hinitial
      · rw [hc, hI] at hinitial
        simp at hinitial
      · rw [hc] at hinitial
        rcases hinitial with hnone | hletter | hletter
        · cases hnone
        · obtain rfl := Option.some.inj hletter
          exact absurd hdigit (by decide)
        · obtain rfl := Option.some.inj hletter
          exact absurd hdigit (by decide)
    | ok found =>
      rw [hheader] at h
      simp only [frombuffer] at h
      split_ifs at h
      · obtain rfl := Except.error.inj h
        simp [initial] at hinitial
      · obtain rfl := Except.error.inj h
        simp [initial] at hinitial

/-- What the first mapping of a region is: one of its path, of a part of its file. -/
lemma exists_of_firstMapping {regions : Regions} {calls : List ShmCall} {coreId : ℕ}
    {shm : Mapping} (h : firstMapping regions calls coreId = some shm) :
    ∃ file, regions (shmPath coreId) = some file ∧ shm.path = shmPath coreId ∧
      shm.length ≤ file.length := by
  obtain ⟨call, -, hcall⟩ := List.exists_of_findSome?_eq_some h
  split_ifs at hcall with hpath
  simp only [mapRegion, hpath] at hcall
  cases hregion : regions (shmPath coreId) with
  | none =>
    rw [hregion] at hcall
    cases hcall
  | some file =>
    rw [hregion] at hcall
    cases hmap : mapFile file call.args.2 with
    | error e =>
      simp only [hmap] at hcall
      cases hcall
    | ok n =>
      simp only [hmap] at hcall
      obtain rfl := Option.some.inj hcall
      exact ⟨file, rfl, rfl, mapFile_le hmap⟩

/-- **Reading after earlier calls.**  After any calls of the process, `read_tensor` gives the same
as in a fresh process exactly if no call has mapped the region before, or the call itself could map
it and the first mapping shows the same of the block as that one would. -/
theorem readTensor_history_iff (regions : Regions) (calls : List ShmCall) (coreId : ℕ)
    (byteOffset sizeBytes : ℤ) :
    (readTensor regions (afterCalls regions calls) coreId byteOffset sizeBytes).1 =
        (readTensor regions .empty coreId byteOffset sizeBytes).1 ↔
      ∀ shm, firstMapping regions calls coreId = some shm →
        ∃ file length, regions (shmPath coreId) = some file ∧ mapFile file sizeBytes = .ok length ∧
          SameReach file byteOffset shm.length length := by
  have hnone : (attachShm regions .empty coreId sizeBytes).1 =
      mapRegion regions coreId sizeBytes := by
    simp only [attachShm, Dict.get_empty]
    cases mapRegion regions coreId sizeBytes with
    | error e => rfl
    | ok shm => rfl
  rw [readTensor_fst, readTensor_fst, hnone, attachShm_afterCalls]
  cases hfirst : firstMapping regions calls coreId with
  | none => exact iff_of_true rfl fun shm hshm => by cases hshm
  | some shm =>
    obtain ⟨file, hfile, hpath, hle⟩ := exists_of_firstMapping hfirst
    have hbytes : shm.bytes regions = file.take shm.length := by
      rw [Mapping.bytes, hpath, hfile, Option.getD_some]
    simp only [hbytes, mapRegion, hfile]
    cases hmap : mapFile file sizeBytes with
    | error e =>
      refine iff_of_false (readMapped_ne_of_mapFile hmap _ byteOffset) fun hall => ?_
      obtain ⟨file', length, hfile', hlong, -⟩ := hall shm rfl
      obtain rfl := Option.some.inj hfile'
      rw [hmap] at hlong
      cases hlong
    | ok length =>
      have hfresh : Mapping.bytes regions ⟨shmPath coreId, length⟩ = file.take length := by
        rw [Mapping.bytes, hfile, Option.getD_some]
      simp only [Except.map, hfresh]
      rw [readMapped_eq_iff hle (mapFile_le hmap)]
      constructor
      · intro hreach shm' hshm'
        obtain rfl := Option.some.inj hshm'
        exact ⟨file, length, rfl, hmap, hreach⟩
      · intro hall
        obtain ⟨file', length', hfile', hlong, hreach⟩ := hall shm rfl
        obtain rfl := Option.some.inj hfile'
        rw [hmap] at hlong
        obtain rfl := Except.ok.inj hlong
        exact hreach

/-- A region that holds one block, of one byte of keys and one byte of values. -/
def byteRegion : Bytes :=
  slotBytes (descriptorOf (byteBlock 1) 1 1 1) (byteBlock 1).keyTensor (byteBlock 1).valTensor

/-- A process that has attached to the first 64 bytes of a region of 66 bytes sees no more of it
when it reads the block, where a fresh process reads the whole block. -/
theorem readTensor_after_short_attach :
    (readTensor (constRegions byteRegion) (afterCalls (constRegions byteRegion) [.attach 0 64])
        0 0 66).1 ≠ (readTensor (constRegions byteRegion) .empty 0 0 66).1 ∧
      (readTensor (constRegions byteRegion) (afterCalls (constRegions byteRegion) [.attach 0 64])
        0 0 66).1 = .error (.valueError "buffer is smaller than requested size") ∧
      ∃ arr, (readTensor (constRegions byteRegion) .empty 0 0 66).1 = .ok arr ∧
        arr.data = [1, 1] := by
  have hafter : (readTensor (constRegions byteRegion)
      (afterCalls (constRegions byteRegion) [.attach 0 64]) 0 0 66).1 =
        .error (.valueError "buffer is smaller than requested size") := rfl
  obtain ⟨arr, hfresh, hdata⟩ : ∃ arr,
      (readTensor (constRegions byteRegion) .empty 0 0 66).1 = .ok arr ∧ arr.data = [1, 1] :=
    ⟨_, rfl, rfl⟩
  refine ⟨?_, hafter, arr, hfresh, hdata⟩
  rw [hafter, hfresh]
  exact fun heq => by cases heq

end KacheDB
