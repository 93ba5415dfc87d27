import KacheDB.SharedMemoryHistory
import KacheDB.TorchReader

/-!
# Servers that are started again

A server that is started again makes new files under the paths of its regions.  A mapping stays
with the file that it was made of, and `attach_shm` returns the mapping it remembers without looking
at the path.  So a process may go on reading a file that no server writes to; `detach_all` makes it
forget its mappings.

`ShmProcess` is a process beside a server that may do anything to its files at any time, except to
cut one off that may be mapped.  `readsFresh_iff` says when the process reads what a process reads
that has mapped nothing, whatever the server writes: exactly if the first call that has mapped the
region since the last `detach_all` has mapped the file that its path leads to now, and as much of
it as the call itself would map.
-/

namespace KacheDB

open Foundation

/-- The files of the regions: where a path leads, and what the files hold. -/
structure ShmFiles where
  names : String → Option ℕ
  contents : ℕ → Bytes

/-- What is found under the paths. -/
def ShmFiles.regions (files : ShmFiles) : Regions :=
  fun path => (files.names path).map files.contents

/-- A shared mapping of the first bytes of a file, which it keeps whatever becomes of the path. -/
structure FileMapping where
  file : ℕ
  length : ℕ
  deriving DecidableEq

/-- Map the region of a core, with no regard to what has been mapped. -/
def ShmFiles.mapRegion (files : ShmFiles) (coreId : ℕ) (sizeBytes : ℤ) : Except Exc FileMapping :=
  (KacheDB.mapRegion files.regions coreId sizeBytes).map fun shm =>
    ⟨(files.names shm.path).getD 0, shm.length⟩

/-- A process with its dictionary `_shm_cache`, and the files beside it. -/
structure ShmProcess where
  files : ShmFiles
  shmCache : Dict String FileMapping

namespace ShmProcess

/-- Attach to the region of a core. -/
def attachShm (p : ShmProcess) (coreId : ℕ) (sizeBytes : ℤ) :
    Except Exc FileMapping × ShmProcess :=
  match p.shmCache.get (shmPath coreId) with
  | some shm => (.ok shm, p)
  | none =>
    match p.files.mapRegion coreId sizeBytes with
    | .error e => (.error e, p)
    | .ok shm => (.ok shm, { p with shmCache := p.shmCache.set (shmPath coreId) shm })

/-- The bytes that are seen through a mapping. -/
def bytes (p : ShmProcess) (shm : FileMapping) : Bytes :=
  (p.files.contents shm.file).take shm.length

/-- Read a tensor block from the region of a core. -/
def readTensor (p : ShmProcess) (coreId : ℕ) (byteOffset sizeBytes : ℤ) :
    Except Exc NDArray × ShmProcess :=
  match p.attachShm coreId sizeBytes with
  | (.error e, p') => (.error e, p')
  | (.ok shm, p') => (readMapped (p'.bytes shm) byteOffset, p')

/-- Read a tensor block as a tensor of PyTorch. -/
def readTorchTensor (p : ShmProcess) (coreId : ℕ) (byteOffset sizeBytes : ℤ) :
    Except Exc Tensor × ShmProcess :=
  match p.readTensor coreId byteOffset sizeBytes with
  | (.error e, p') => (.error e, p')
  | (.ok arr, p') => (torchFrombuffer arr (numpyToTorch arr.dtype), p')

/-- Forget all mappings.  One that an array still looks through cannot be closed; the exception is
suppressed, and the array keeps it. -/
def detachAll (p : ShmProcess) : ShmProcess :=
  { p with shmCache := .empty }

end ShmProcess

/-- Something that happens: a call of the process, or what the server does to its files. -/
inductive ShmEvent : Type where
  | attach (coreId : ℕ) (sizeBytes : ℤ)
  | read (coreId : ℕ) (byteOffset sizeBytes : ℤ)
  | readTorch (coreId : ℕ) (byteOffset sizeBytes : ℤ)
  | detachAll
  | serve (files : ShmFiles)

namespace ShmProcess

/-- One event. -/
def step (p : ShmProcess) : ShmEvent → ShmProcess
  | .attach coreId sizeBytes => (p.attachShm coreId sizeBytes).2
  | .read coreId byteOffset sizeBytes => (p.readTensor coreId byteOffset sizeBytes).2
  | .readTorch coreId byteOffset sizeBytes => (p.readTorchTensor coreId byteOffset sizeBytes).2
  | .detachAll => p.detachAll
  | .serve files => { p with files := files }

/-- The process after some events. -/
def run (p : ShmProcess) (events : List ShmEvent) : ShmProcess :=
  events.foldl step p

end ShmProcess

/-- The core and the size of a call that asks for a mapping. -/
def ShmEvent.args : ShmEvent → Option (ℕ × ℤ)
  | .attach coreId sizeBytes => some (coreId, sizeBytes)
  | .read coreId _ sizeBytes => some (coreId, sizeBytes)
  | .readTorch coreId _ sizeBytes => some (coreId, sizeBytes)
  | _ => none

/-- The calls that ask for a mapping, each with the files that it finds. -/
def requests (files : ShmFiles) : List ShmEvent → List (ShmFiles × ℕ × ℤ)
  | [] => []
  | .serve files' :: events => requests files' events
  | event :: events =>
    match event.args with
    | some args => (files, args) :: requests files events
    | none => requests files events

/-- What the first of these calls for the region of this core has mapped that could map it. -/
def firstFileMapping (files : ShmFiles) (events : List ShmEvent) (coreId : ℕ) :
    Option FileMapping :=
  (requests files events).findSome? fun request =>
    if shmPath request.2.1 = shmPath coreId then
      (request.1.mapRegion request.2.1 request.2.2).toOption
    else none

/-- The server cuts no file off. -/
def CutsNothing (p : ShmProcess) : ShmEvent → Prop
  | .serve files => ∀ file, (p.files.contents file).length ≤ (files.contents file).length
  | _ => True

/-- The same process, with other bytes in the files. -/
def ShmProcess.withContents (p : ShmProcess) (contents : ℕ → Bytes) : ShmProcess :=
  ⟨⟨p.files.names, contents⟩, p.shmCache⟩

/-- Whatever the server writes into the files that there are, reading gives the same as in a process
that has mapped nothing. -/
def ReadsFresh (p : ShmProcess) (coreId : ℕ) (sizeBytes : ℤ) : Prop :=
  ∀ contents : ℕ → Bytes, (∀ file, (contents file).length = (p.files.contents file).length) →
    ∀ byteOffset : ℤ,
      ((p.withContents contents).readTensor coreId byteOffset sizeBytes).1 =
          (KacheDB.readTensor (p.withContents contents).files.regions .empty coreId byteOffset
            sizeBytes).1 ∧
        ((p.withContents contents).readTorchTensor coreId byteOffset sizeBytes).1 =
          (KacheDB.readTorchTensor (p.withContents contents).files.regions .empty coreId byteOffset
            sizeBytes).1

/-! ## Mapping a region -/

section Regions

variable {files : ShmFiles} {coreId : ℕ} {sizeBytes : ℤ}

/-- What maps a region: the path leads to a file, and so much of it can be mapped. -/
lemma ShmFiles.mapRegion_eq_ok_iff {shm : FileMapping} :
    files.mapRegion coreId sizeBytes = .ok shm ↔
      files.names (shmPath coreId) = some shm.file ∧
        mapFile (files.contents shm.file) sizeBytes = .ok shm.length := by
  simp only [ShmFiles.mapRegion, KacheDB.mapRegion, ShmFiles.regions]
  cases hname : files.names (shmPath coreId) with
  | none => simp [Except.map]
  | some file =>
    simp only [Option.map_some]
    cases hmap : mapFile (files.contents file) sizeBytes with
    | error e =>
      refine iff_of_false (by simp [Except.map]) ?_
      rintro ⟨hfile, hlength⟩
      rw [← Option.some.inj hfile, hmap] at hlength
      cases hlength
    | ok length =>
      simp only [Except.map, hname, Option.getD_some, Except.ok.injEq]
      constructor
      · rintro rfl
        exact ⟨rfl, hmap⟩
      · rintro ⟨hfile, hlength⟩
        rw [← Option.some.inj hfile, hmap] at hlength
        rw [Option.some.inj hfile, Except.ok.inj hlength]

/-- How much of a file can be mapped depends on its length only. -/
lemma mapFile_congr {file file' : Bytes} (h : file.length = file'.length) :
    mapFile file sizeBytes = mapFile file' sizeBytes := by
  simp only [mapFile, h]

/-- What maps a region does not depend on what the files hold. -/
lemma mapRegion_withContents {p : ShmProcess} {contents : ℕ → Bytes}
    (h : ∀ file, (contents file).length = (p.files.contents file).length) :
    (p.withContents contents).files.mapRegion coreId sizeBytes =
      p.files.mapRegion coreId sizeBytes := by
  simp only [ShmProcess.withContents, ShmFiles.mapRegion, KacheDB.mapRegion, ShmFiles.regions]
  cases p.files.names (shmPath coreId) with
  | none => rfl
  | some file =>
    simp only [Option.map_some]
    rw [mapFile_congr (h file)]

/-- A process that has mapped nothing reads what is found under the path. -/
lemma readTensor_empty_fst (byteOffset : ℤ) :
    (KacheDB.readTensor files.regions .empty coreId byteOffset sizeBytes).1 =
      (files.mapRegion coreId sizeBytes).bind fun shm =>
        readMapped ((files.contents shm.file).take shm.length) byteOffset := by
  have hattach : (KacheDB.attachShm files.regions .empty coreId sizeBytes).1 =
      KacheDB.mapRegion files.regions coreId sizeBytes := by
    simp only [KacheDB.attachShm, Dict.get_empty]
    cases KacheDB.mapRegion files.regions coreId sizeBytes with
    | error e => rfl
    | ok shm => rfl
  rw [readTensor_fst, hattach]
  simp only [ShmFiles.mapRegion, KacheDB.mapRegion, ShmFiles.regions]
  cases hname : files.names (shmPath coreId) with
  | none => rfl
  | some file =>
    simp only [Option.map_some]
    cases mapFile (files.contents file) sizeBytes with
    | error e => rfl
    | ok length =>
      have hregion : files.regions (shmPath coreId) = some (files.contents file) := by
        rw [ShmFiles.regions, hname, Option.map_some]
      simp only [Except.map, Except.bind, Mapping.bytes, hname, hregion, Option.getD_some]

/-- Nor does it matter to the tensor how the array was read. -/
lemma readTorchTensor_eq_bind (regions : Regions) (shmCache : Dict String Mapping)
    (byteOffset : ℤ) :
    (KacheDB.readTorchTensor regions shmCache coreId byteOffset sizeBytes).1 =
      (KacheDB.readTensor regions shmCache coreId byteOffset sizeBytes).1.bind fun arr =>
        torchFrombuffer arr (numpyToTorch arr.dtype) := by
  unfold KacheDB.readTorchTensor
  rcases KacheDB.readTensor regions shmCache coreId byteOffset sizeBytes with ⟨e | arr, shmCache'⟩
  · rfl
  · rfl

end Regions

namespace ShmProcess

variable {p : ShmProcess} {coreId : ℕ} {sizeBytes : ℤ}

/-- The array depends on what attaching gives. -/
lemma readTensor_eq_bind (byteOffset : ℤ) :
    (p.readTensor coreId byteOffset sizeBytes).1 =
      (p.attachShm coreId sizeBytes).1.bind fun shm => readMapped (p.bytes shm) byteOffset := by
  unfold readTensor attachShm
  cases p.shmCache.get (shmPath coreId) with
  | some shm => rfl
  | none =>
    cases p.files.mapRegion coreId sizeBytes with
    | error e => rfl
    | ok shm => rfl

/-- The tensor depends on the array. -/
lemma readTorchTensor_eq_bind (byteOffset : ℤ) :
    (p.readTorchTensor coreId byteOffset sizeBytes).1 =
      (p.readTensor coreId byteOffset sizeBytes).1.bind fun arr =>
        torchFrombuffer arr (numpyToTorch arr.dtype) := by
  unfold readTorchTensor
  rcases p.readTensor coreId byteOffset sizeBytes with ⟨e | arr, p'⟩
  · rfl
  · rfl

/-! ## What is remembered -/

/-- The path of a request. -/
def requestPath (request : ShmFiles × ℕ × ℤ) : String :=
  shmPath request.2.1

/-- The mapping that a request makes if none is remembered. -/
def requestMapping (request : ShmFiles × ℕ × ℤ) : Except Exc FileMapping :=
  request.1.mapRegion request.2.1 request.2.2

/-- Attaching is a request for a remembered mapping. -/
lemma attachShm_eq_request (p : ShmProcess) (args : ℕ × ℤ) :
    p.attachShm args.1 args.2 =
      ((Memo.request requestPath requestMapping p.shmCache (p.files, args)).1,
        ⟨p.files, (Memo.request requestPath requestMapping p.shmCache (p.files, args)).2⟩) := by
  simp only [attachShm, Memo.request, requestPath, requestMapping]
  cases p.shmCache.get (shmPath args.1) with
  | some shm => rfl
  | none =>
    cases p.files.mapRegion args.1 args.2 with
    | error e => rfl
    | ok shm => rfl

/-- A call that asks for a mapping leaves what attaching leaves. -/
lemma step_of_args (p : ShmProcess) {event : ShmEvent} {args : ℕ × ℤ}
    (h : event.args = some args) : p.step event = (p.attachShm args.1 args.2).2 := by
  have hread (coreId : ℕ) (byteOffset sizeBytes : ℤ) :
      (p.readTensor coreId byteOffset sizeBytes).2 = (p.attachShm coreId sizeBytes).2 := by
    unfold readTensor
    rcases p.attachShm coreId sizeBytes with ⟨e | shm, p'⟩
    · rfl
    · rfl
  cases event with
  | attach coreId sizeBytes =>
    obtain rfl := Option.some.inj h
    rfl
  | read coreId byteOffset sizeBytes =>
    obtain rfl := Option.some.inj h
    exact hread coreId byteOffset sizeBytes
  | readTorch coreId byteOffset sizeBytes =>
    obtain rfl := Option.some.inj h
    rw [← hread coreId byteOffset sizeBytes, step, readTorchTensor]
    rcases p.readTensor coreId byteOffset sizeBytes with ⟨e | arr, p'⟩
    · rfl
    · rfl
  | detachAll => cases h
  | serve files => cases h

/-- What is remembered after some events without a `detach_all`. -/
lemma shmCache_run (p : ShmProcess) {events : List ShmEvent}
    (hkept : ShmEvent.detachAll ∉ events) :
    (p.run events).shmCache =
      Memo.run requestPath requestMapping p.shmCache (requests p.files events) := by
  induction events generalizing p with
  | nil => rfl
  | cons event events ih =>
    obtain ⟨hne, hrest⟩ := not_or.mp (mt List.mem_cons.mpr hkept)
    have hcall {args : ℕ × ℤ} (hargs : event.args = some args) :
        (p.run (event :: events)).shmCache = Memo.run requestPath requestMapping p.shmCache
          ((p.files, args) :: requests p.files events) := by
      rw [run, List.foldl_cons, ← run, step_of_args p hargs, attachShm_eq_request, ih _ hrest]
      rfl
    cases event with
    | attach coreId sizeBytes => exact hcall rfl
    | read coreId byteOffset sizeBytes => exact hcall rfl
    | readTorch coreId byteOffset sizeBytes => exact hcall rfl
    | detachAll => exact absurd rfl hne
    | serve files => exact ih { p with files := files } hrest

/-- After a `detach_all`, the mapping of a region is the one of the first call that has mapped
it. -/
lemma get_run_detachAll (p : ShmProcess) {events : List ShmEvent}
    (hkept : ShmEvent.detachAll ∉ events) (coreId : ℕ) :
    (p.detachAll.run events).shmCache.get (shmPath coreId) =
      firstFileMapping p.files events coreId := by
  rw [shmCache_run _ hkept, Memo.get_run]
  exact Option.none_or

/-- No mapping goes beyond the end of its file. -/
def Sound (p : ShmProcess) : Prop :=
  ∀ path shm, p.shmCache.get path = some shm → shm.length ≤ (p.files.contents shm.file).length

/-- A process that has forgotten its mappings has none. -/
lemma sound_detachAll (p : ShmProcess) : p.detachAll.Sound := by
  intro path shm hshm
  rw [detachAll, Dict.get_empty] at hshm
  cases hshm

/-- Attaching keeps this. -/
lemma Sound.attachShm (hp : p.Sound) (coreId : ℕ) (sizeBytes : ℤ) :
    (p.attachShm coreId sizeBytes).2.Sound := by
  unfold ShmProcess.attachShm
  cases hget : p.shmCache.get (shmPath coreId) with
  | some shm => exact hp
  | none =>
    cases hmap : p.files.mapRegion coreId sizeBytes with
    | error e => exact hp
    | ok shm =>
      intro path shm' hshm'
      by_cases hpath : path = shmPath coreId
      · rw [hpath, Dict.get_set_self] at hshm'
        obtain rfl := Option.some.inj hshm'
        exact mapFile_le (ShmFiles.mapRegion_eq_ok_iff.mp hmap).2
      · rw [Dict.get_set_of_ne _ hpath] at hshm'
        exact hp path shm' hshm'

/-- So does everything, as long as the server cuts no file off. -/
lemma Sound.step (hp : p.Sound) {event : ShmEvent} (hcuts : CutsNothing p event) :
    (p.step event).Sound := by
  cases hargs : event.args with
  | some args =>
    rw [step_of_args p hargs]
    exact hp.attachShm args.1 args.2
  | none =>
    cases event with
    | attach coreId sizeBytes => cases hargs
    | read coreId byteOffset sizeBytes => cases hargs
    | readTorch coreId byteOffset sizeBytes => cases hargs
    | detachAll => exact p.sound_detachAll
    | serve files => exact fun path shm hshm => (hp path shm hshm).trans (hcuts shm.file)

end ShmProcess

/-! ## What two mappings show -/

/-- A mapping too short for a header shows no more than its length. -/
lemma readMapped_of_short {mem mem' : Bytes} (h : mem.length < 64) (hlen : mem.length = mem'.length)
    (byteOffset : ℤ) : readMapped mem byteOffset = readMapped mem' byteOffset := by
  have hshort {bytes : Bytes} (hbytes : bytes.length < 64) : readHeader bytes =
      .error (.valueError ("Descriptor requires 64 bytes, got " ++ toString bytes.length)) := by
    rw [readHeader, TensorBlockDescriptor.fromBytes, dif_pos hbytes]
  have hwindow (bytes : Bytes) :
      (window bytes byteOffset.toNat 64).length = min 64 (bytes.length - byteOffset.toNat) := by
    rw [window, List.length_take, List.length_drop]
  unfold readMapped
  rw [hlen]
  split_ifs
  · rfl
  · rw [hshort (by rw [hwindow]; omega), hshort (by rw [hwindow]; omega), hwindow, hwindow, hlen]

/-- A header that the reader accepts, of a block without elements. -/
def emptyHeader : TensorBlockDescriptor :=
  KacheDBMemoryManager.blockDescriptor 0 0 0 .int8 0 0 0

/-- Files of the same lengths, one of which begins with such a header. -/
lemma exists_contents (files : ShmFiles) (file file' : ℕ) (hne : file ≠ file')
    (hlen' : 64 ≤ (files.contents file').length) :
    ∃ contents : ℕ → Bytes,
      (∀ i, (contents i).length = (files.contents i).length) ∧
        contents file = List.replicate (files.contents file).length 0 ∧
        contents file' = emptyHeader.toBytes ++
          List.replicate ((files.contents file').length - 64) 0 := by
  refine ⟨Function.update (fun i => List.replicate (files.contents i).length 0) file'
    (emptyHeader.toBytes ++ List.replicate ((files.contents file').length - 64) 0),
    fun i => ?_, Function.update_of_ne hne _ _, Function.update_self _ _ _⟩
  by_cases hi : i = file'
  · have hheader : emptyHeader.toBytes.length = 64 := emptyHeader.length_toBytes
    rw [hi, Function.update_self, List.length_append, List.length_replicate, hheader]
    omega
  · rw [Function.update_of_ne hi, List.length_replicate]

/-- A file of zeros has no header, and one with the header of a block without elements has one. -/
lemma readMapped_ne {n k length : ℕ} (hn : 64 ≤ n) (hlength : 64 ≤ length) (hk : length - 64 ≤ k) :
    readMapped ((List.replicate n 0).take length) (0 : ℕ) ≠
      readMapped ((emptyHeader.toBytes ++ List.replicate k 0).take length) (0 : ℕ) := by
  have hheader : emptyHeader.toBytes.length = 64 := emptyHeader.length_toBytes
  have hzeros : readHeader (window ((List.replicate n 0).take length) 0 64) =
      readHeader (List.replicate 64 0) := by
    rw [window_take (by omega), window_replicate (by omega)]
  have hfirst : window ((emptyHeader.toBytes ++ List.replicate k 0).take length) 0 64 =
      emptyHeader.toBytes := by
    have hwhole := window_zero_length emptyHeader.toBytes
    rw [hheader] at hwhole
    rw [window_take (by omega), window_append_left _ (by omega), hwhole]
  have hlen : ((emptyHeader.toBytes ++ List.replicate k 0).take length).length = length := by
    rw [List.length_take, List.length_append, List.length_replicate, hheader]
    omega
  have hread : readHeader emptyHeader.toBytes = .ok (.int8, 0) := by
    rw [readHeader, TensorBlockDescriptor.fromBytes_toBytes]
    rfl
  have hseek (bytes : Bytes) : ¬ (((0 : ℕ) : ℤ) < 0 ∨ (bytes.length : ℤ) < ((0 : ℕ) : ℤ)) := by
    omega
  rw [readMapped, readMapped, if_neg (hseek _), if_neg (hseek _), Int.toNat_natCast, hzeros, hfirst,
    hread]
  simp only [frombuffer]
  rw [if_neg (by omega), dif_pos (by omega)]
  exact fun heq => by cases heq

/-- Reading a mapping raises nothing but `ValueError`. -/
lemma readMapped_error {mem : Bytes} {byteOffset : ℤ} {e : Exc}
    (h : readMapped mem byteOffset = .error e) : ∃ text, e = .valueError text := by
  unfold readMapped at h
  split_ifs at h
  · exact ⟨_, (Except.error.inj h).symm⟩
  · cases hheader : readHeader (window mem byteOffset.toNat 64) with
    | error e' =>
      rw [hheader] at h
      obtain rfl := Except.error.inj h
      have hinitial : initial (.error e') ≠ none := by
        obtain ⟨-, hD⟩ | ⟨-, c, hc, -⟩ := initial_readHeader hheader
        · rw [hD]
          simp
        · rw [hc]
          simp
      cases e' with
      | valueError text => exact ⟨text, rfl⟩
      | _ => exact absurd rfl hinitial
    | ok found =>
      rw [hheader] at h
      simp only [frombuffer] at h
      split_ifs at h
      · exact ⟨_, (Except.error.inj h).symm⟩
      · exact ⟨_, (Except.error.inj h).symm⟩

/-- Reading a mapping never fails as mapping the region does. -/
lemma readMapped_ne_of_mapRegion {files : ShmFiles} {coreId : ℕ} {sizeBytes : ℤ} {e : Exc}
    (hmap : files.mapRegion coreId sizeBytes = .error e) (mem : Bytes) (byteOffset : ℤ) :
    readMapped mem byteOffset ≠ .error e := by
  simp only [ShmFiles.mapRegion, KacheDB.mapRegion, ShmFiles.regions] at hmap
  cases hname : files.names (shmPath coreId) with
  | none =>
    rw [hname] at hmap
    obtain rfl := Except.error.inj hmap
    intro h
    obtain ⟨text, htext⟩ := readMapped_error h
    cases htext
  | some file =>
    rw [hname] at hmap
    simp only [Option.map_some] at hmap
    cases hfile : mapFile (files.contents file) sizeBytes with
    | error e' =>
      rw [hfile] at hmap
      obtain rfl := Except.error.inj hmap
      exact readMapped_ne_of_mapFile hfile mem byteOffset
    | ok length =>
      rw [hfile] at hmap
      cases hmap

/-! ## Processes that read what is there -/

namespace ShmProcess

variable {p : ShmProcess} {coreId : ℕ} {sizeBytes : ℤ}

/-- Reading through a mapping that is remembered. -/
lemma readTensor_of_get {shm : FileMapping} (h : p.shmCache.get (shmPath coreId) = some shm)
    (byteOffset : ℤ) :
    (p.readTensor coreId byteOffset sizeBytes).1 =
      readMapped ((p.files.contents shm.file).take shm.length) byteOffset := by
  rw [readTensor_eq_bind, attachShm, h]
  rfl

/-- Reading a region of which no mapping is remembered. -/
lemma readTensor_of_get_none (h : p.shmCache.get (shmPath coreId) = none) (byteOffset : ℤ) :
    (p.readTensor coreId byteOffset sizeBytes).1 =
      (KacheDB.readTensor p.files.regions .empty coreId byteOffset sizeBytes).1 := by
  rw [readTensor_eq_bind, attachShm, h, readTensor_empty_fst]
  cases p.files.mapRegion coreId sizeBytes with
  | error e => rfl
  | ok shm => rfl

/-- It is enough to look at the arrays. -/
lemma readsFresh_iff_readTensor :
    ReadsFresh p coreId sizeBytes ↔
      ∀ contents : ℕ → Bytes, (∀ i, (contents i).length = (p.files.contents i).length) →
        ∀ byteOffset : ℤ,
          ((p.withContents contents).readTensor coreId byteOffset sizeBytes).1 =
            (KacheDB.readTensor (p.withContents contents).files.regions .empty coreId byteOffset
              sizeBytes).1 := by
  refine forall₃_congr fun contents _ byteOffset => ?_
  rw [readTorchTensor_eq_bind, KacheDB.readTorchTensor_eq_bind]
  exact and_iff_left_of_imp fun h => by rw [h]

/-- A process reads what is there exactly if a remembered mapping is one of the file that the path
leads to, and of as much of it as would be mapped now. -/
lemma readsFresh_iff_get (hp : p.Sound) :
    ReadsFresh p coreId sizeBytes ↔
      ∀ shm, p.shmCache.get (shmPath coreId) = some shm →
        ∃ shm', p.files.mapRegion coreId sizeBytes = .ok shm' ∧ shm'.length = shm.length ∧
          (shm'.file = shm.file ∨ shm.length < 64) := by
  rw [readsFresh_iff_readTensor]
  constructor
  · intro hfresh shm hshm
    have hread (contents : ℕ → Bytes)
        (hlen : ∀ i, (contents i).length = (p.files.contents i).length) (byteOffset : ℤ) :
        readMapped ((contents shm.file).take shm.length) byteOffset =
          (p.files.mapRegion coreId sizeBytes).bind fun shm' =>
            readMapped ((contents shm'.file).take shm'.length) byteOffset := by
      have h := hfresh contents hlen byteOffset
      rwa [readTensor_of_get (p := p.withContents contents) hshm, readTensor_empty_fst,
        mapRegion_withContents hlen] at h
    cases hmap : p.files.mapRegion coreId sizeBytes with
    | error e =>
      have h := hread p.files.contents (fun _ => rfl) 0
      rw [hmap] at h
      exact absurd h (readMapped_ne_of_mapRegion hmap _ 0)
    | ok shm' =>
      simp only [hmap, Except.bind] at hread
      have hle := hp _ shm hshm
      have hle' := mapFile_le (ShmFiles.mapRegion_eq_ok_iff.mp hmap).2
      have hends (offset : ℕ) : shm.length < offset ↔ shm'.length < offset := by
        have h := hread p.files.contents (fun _ => rfl) offset
        rw [← (initial_readMapped hle).1, ← (initial_readMapped hle').1, h]
      have hlength : shm'.length = shm.length := by
        have h := (hends (shm.length + 1)).mp (by omega)
        have h' := (hends (shm'.length + 1)).mpr (by omega)
        omega
      refine ⟨shm', rfl, hlength, ?_⟩
      by_contra hneither
      obtain ⟨hfile, hlong⟩ := not_or.mp hneither
      obtain ⟨contents, hlen, hzeros, hheader⟩ := exists_contents p.files shm.file
        shm'.file (fun h => hfile h.symm) (by omega)
      have h := hread contents hlen (0 : ℕ)
      rw [hzeros, hheader, hlength] at h
      exact readMapped_ne (by omega) (by omega) (by omega) h
  · intro hsame contents hlen byteOffset
    cases hget : p.shmCache.get (shmPath coreId) with
    | none => exact readTensor_of_get_none (p := p.withContents contents) hget byteOffset
    | some shm =>
      obtain ⟨shm', hmap, hlength, hfile⟩ := hsame shm hget
      have hle := hp _ shm hget
      have hle' := mapFile_le (ShmFiles.mapRegion_eq_ok_iff.mp hmap).2
      rw [readTensor_of_get (p := p.withContents contents) hget, readTensor_empty_fst,
        mapRegion_withContents hlen, hmap]
      change readMapped ((contents shm.file).take shm.length) byteOffset =
        readMapped ((contents shm'.file).take shm'.length) byteOffset
      rcases hfile with hfile | hshort
      · rw [hfile, hlength]
      · have hseen : ((contents shm.file).take shm.length).length = shm.length :=
          List.length_take_of_le (by rw [hlen]; exact hle)
        have hseen' : ((contents shm'.file).take shm'.length).length = shm'.length :=
          List.length_take_of_le (by rw [hlen]; exact hle')
        exact readMapped_of_short (by omega) (by omega) byteOffset

end ShmProcess

/-- **Servers that are started again.**  After a `detach_all`, any calls of the process, and
whatever the server has done to its files without cutting one off, reading a region gives what a
process reads that has mapped nothing, whatever the server writes into the files, exactly if the
first call since then that has mapped the region, if there is one, has mapped the file to which the
path leads now, and as much of it as would be mapped now; too little for a header is the same of
any file. -/
theorem readsFresh_iff (p : ShmProcess) {events : List ShmEvent}
    (hkept : ShmEvent.detachAll ∉ events)
    (hcuts : Guarded ShmProcess.step CutsNothing p.detachAll events) (coreId : ℕ) (sizeBytes : ℤ) :
    ReadsFresh (p.detachAll.run events) coreId sizeBytes ↔
      ∀ shm, firstFileMapping p.files events coreId = some shm →
        ∃ shm', (p.detachAll.run events).files.mapRegion coreId sizeBytes = .ok shm' ∧
          shm'.length = shm.length ∧ (shm'.file = shm.file ∨ shm.length < 64) := by
  have hsound : (p.detachAll.run events).Sound :=
    invariant_of_guarded (fun _ _ hp hcut => hp.step hcut) p.sound_detachAll hcuts events
      List.prefix_rfl
  rw [ShmProcess.readsFresh_iff_get hsound, ShmProcess.get_run_detachAll p hkept]

/-- Every path leads to this file of 64 bytes. -/
def oneFile (file : ℕ) : ShmFiles :=
  ⟨fun _ => some file, fun _ => List.replicate 64 0⟩

/-- A process that has attached to a region before the server was started again. -/
theorem readsFresh_iff_restart :
    ShmEvent.detachAll ∉ [.attach 0 64, .serve (oneFile 1)] ∧
      Guarded ShmProcess.step CutsNothing (ShmProcess.detachAll ⟨oneFile 0, .empty⟩)
        [.attach 0 64, .serve (oneFile 1)] ∧
      (ReadsFresh ((ShmProcess.detachAll ⟨oneFile 0, .empty⟩).run
          [.attach 0 64, .serve (oneFile 1)]) 0 64 ↔
        ∀ shm, firstFileMapping (oneFile 0) [.attach 0 64, .serve (oneFile 1)] 0 = some shm →
          ∃ shm', ((ShmProcess.detachAll ⟨oneFile 0, .empty⟩).run
              [.attach 0 64, .serve (oneFile 1)]).files.mapRegion 0 64 = .ok shm' ∧
            shm'.length = shm.length ∧ (shm'.file = shm.file ∨ shm.length < 64)) := by
  have hkept : ShmEvent.detachAll ∉ [.attach 0 64, .serve (oneFile 1)] := by simp
  have hcuts : Guarded ShmProcess.step CutsNothing (ShmProcess.detachAll ⟨oneFile 0, .empty⟩)
      [.attach 0 64, .serve (oneFile 1)] := ⟨trivial, fun _ => le_rfl, trivial⟩
  exact ⟨hkept, hcuts, readsFresh_iff ⟨oneFile 0, .empty⟩ hkept hcuts 0 64⟩

end KacheDB
