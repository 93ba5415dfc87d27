import KacheDB.Exceptions
import KacheDB.Foundation.Windows

/-!
# Tensors by their bytes

A tensor is its element type, its shape and the bytes of its elements in row-major order.  The
file gives the operations of PyTorch that the connectors use: indexing (`select`), the slice of
the second dimension (`narrow`), and copying into a part of a tensor (`assign`,
`assignNarrow`), with PyTorch's broadcasting.

How an element of one type becomes one of another type is arithmetic of the tensor library and
a parameter here (`Casts`).  Nothing is converted if the two types are the same.
-/

namespace KacheDB

open Foundation

/-- An element type: the five in the map of `TensorCodec`, and others that NumPy has too. -/
inductive DType : Type where
  | float16
  | bfloat16
  | float32
  | int8
  | uint8
  | float64
  | int16
  | int32
  | int64
  deriving DecidableEq

/-- The number of bytes of an element. -/
def DType.itemSize : DType → ℕ
  | .float16 | .bfloat16 | .int16 => 2
  | .float32 | .int32 => 4
  | .int8 | .uint8 => 1
  | .float64 | .int64 => 8

lemma DType.itemSize_pos (d : DType) : 0 < d.itemSize := by
  cases d <;> decide

/-- The conversion of single elements. -/
structure Casts where
  cast : DType → DType → Bytes → Bytes
  length_cast : ∀ src dst b, b.length = src.itemSize → (cast src dst b).length = dst.itemSize

/-- A tensor. -/
@[ext]
structure Tensor where
  dtype : DType
  shape : List ℕ
  data : Bytes
  length_data : data.length = shape.prod * dtype.itemSize

/-- A conversion that makes every element zero. -/
def Casts.zeros : Casts :=
  ⟨fun _ dst _ => List.replicate dst.itemSize 0, fun _ _ _ _ => List.length_replicate⟩

namespace Tensor

/-! ## Parts of a tensor -/

/-- The number of dimensions. -/
def ndim (t : Tensor) : ℕ :=
  t.shape.length

/-- Where the elements of `t[i, j, …]` begin in a tensor of this shape, and the shape of this
part; `none` if an index is out of range. -/
def locate : List ℕ → List ℕ → Option (ℕ × List ℕ)
  | shape, [] => some (0, shape)
  | [], _ :: _ => none
  | n :: shape, i :: path =>
    if i < n then (locate shape path).map fun part => (i * shape.prod + part.1, part.2) else none

/-- A part lies within the tensor. -/
lemma locate_le {shape path s : List ℕ} {o : ℕ} (h : locate shape path = some (o, s)) :
    o + s.prod ≤ shape.prod := by
  induction path generalizing shape o with
  | nil =>
    obtain ⟨rfl, rfl⟩ := Prod.mk.inj (Option.some.inj ((locate.eq_1 shape).symm.trans h))
    omega
  | cons i path ih =>
    cases shape with
    | nil => cases h
    | cons n shape =>
      rw [locate] at h
      split_ifs at h with hi
      obtain ⟨⟨o', s'⟩, hpart, heq⟩ := Option.map_eq_some_iff.mp h
      obtain ⟨rfl, rfl⟩ := Prod.mk.inj heq
      have hle := ih hpart
      have hmul : (i + 1) * shape.prod ≤ n * shape.prod := Nat.mul_le_mul_right _ hi
      rw [List.prod_cons]
      linarith [add_mul i 1 shape.prod]

/-- Two parts with indices of the same number have the same shape, and they are apart if the
indices differ. -/
lemma locate_apart {shape p q s s' : List ℕ} {o o' : ℕ} (hlen : p.length = q.length)
    (hp : locate shape p = some (o, s)) (hq : locate shape q = some (o', s')) :
    s = s' ∧ (p ≠ q → o + s.prod ≤ o' ∨ o' + s'.prod ≤ o) := by
  induction p generalizing shape q o o' with
  | nil =>
    obtain rfl := List.length_eq_zero_iff.mp hlen.symm
    obtain ⟨-, rfl⟩ := Prod.mk.inj (Option.some.inj ((locate.eq_1 shape).symm.trans hp))
    obtain ⟨-, rfl⟩ := Prod.mk.inj (Option.some.inj ((locate.eq_1 shape).symm.trans hq))
    exact ⟨rfl, fun hne => absurd rfl hne⟩
  | cons i p ih =>
    rcases q with _ | ⟨j, q⟩
    · cases hlen
    · cases shape with
      | nil => cases hp
      | cons n shape =>
        rw [locate] at hp hq
        split_ifs at hp with hi
        split_ifs at hq with hj
        obtain ⟨⟨o₁, s₁⟩, hpart, heq⟩ := Option.map_eq_some_iff.mp hp
        obtain ⟨rfl, rfl⟩ := Prod.mk.inj heq
        obtain ⟨⟨o₂, s₂⟩, hpart', heq'⟩ := Option.map_eq_some_iff.mp hq
        obtain ⟨rfl, rfl⟩ := Prod.mk.inj heq'
        obtain ⟨hs, hapart⟩ := ih (by simpa using hlen) hpart hpart'
        refine ⟨hs, fun hne => ?_⟩
        have hle := locate_le hpart
        have hle' := locate_le hpart'
        rcases lt_trichotomy i j with hlt | rfl | hlt
        · have hmul : (i + 1) * shape.prod ≤ j * shape.prod := Nat.mul_le_mul_right _ hlt
          left
          linarith [add_mul i 1 shape.prod]
        · have htail : p ≠ q := fun h => hne (by rw [h])
          exact (hapart htail).imp (by simp only; omega) (by simp only; omega)
        · have hmul : (j + 1) * shape.prod ≤ i * shape.prod := Nat.mul_le_mul_right _ hlt
          right
          linarith [add_mul j 1 shape.prod]

/-- The bytes of a part. -/
def part (t : Tensor) (o : ℕ) (s : List ℕ) : Bytes :=
  window t.data (o * t.dtype.itemSize) (s.prod * t.dtype.itemSize)

lemma mul_add_mul_le {t : Tensor} {path s : List ℕ} {o : ℕ}
    (h : locate t.shape path = some (o, s)) :
    o * t.dtype.itemSize + s.prod * t.dtype.itemSize ≤ t.data.length := by
  rw [t.length_data, ← add_mul]
  exact Nat.mul_le_mul_right _ (locate_le h)

/-- `t[i, j, …]`. -/
def select (t : Tensor) (path : List ℕ) : Except Exc Tensor :=
  match h : locate t.shape path with
  | none => .error .indexError
  | some (o, s) => .ok ⟨t.dtype, s, t.part o s, length_window (mul_add_mul_le h)⟩

/-- What indexing gives. -/
lemma select_eq_ok_iff {t u : Tensor} {path : List ℕ} :
    t.select path = .ok u ↔ ∃ o, locate t.shape path = some (o, u.shape) ∧
      u.dtype = t.dtype ∧ u.data = t.part o u.shape := by
  unfold select
  split
  · next h => simp [h]
  · next o s h =>
    rw [Except.ok.injEq]
    constructor
    · rintro rfl
      exact ⟨o, h, rfl, rfl⟩
    · rintro ⟨o', h', hdtype, hdata⟩
      rw [h] at h'
      obtain ⟨rfl, rfl⟩ := Prod.mk.inj (Option.some.inj h')
      exact Tensor.ext hdtype.symm rfl hdata.symm

/-- Indexing raises `IndexError` only. -/
lemma select_error {t : Tensor} {path : List ℕ} {e : Exc} (h : t.select path = .error e) :
    e = .indexError := by
  unfold select at h
  split at h
  · exact (Except.error.inj h).symm
  · cases h

/-! ## Tensors of one byte -/

/-- A tensor all of whose bytes are `b`. -/
def filled (dtype : DType) (shape : List ℕ) (b : UInt8) : Tensor :=
  ⟨dtype, shape, List.replicate (shape.prod * dtype.itemSize) b, List.length_replicate⟩

/-- A part of such a tensor. -/
lemma select_filled {dtype : DType} {shape path s : List ℕ} {o : ℕ}
    (h : locate shape path = some (o, s)) (b : UInt8) :
    (filled dtype shape b).select path = .ok (filled dtype s b) := by
  refine select_eq_ok_iff.mpr ⟨o, h, rfl, ?_⟩
  have hle := mul_add_mul_le (t := filled dtype shape b) h
  simp only [filled, List.length_replicate] at hle
  exact (window_replicate hle b).symm

/-- Such tensors are different if their bytes are. -/
lemma filled_ne {dtype : DType} {shape : List ℕ} (hpos : 0 < shape.prod) {b b' : UInt8}
    (h : b ≠ b') : filled dtype shape b ≠ filled dtype shape b' := by
  intro heq
  have hdata := congrArg Tensor.data heq
  have hbytes : shape.prod * dtype.itemSize ≠ 0 := (Nat.mul_pos hpos dtype.itemSize_pos).ne'
  exact h ((List.replicate_right_inj hbytes).mp hdata)

/-! ## Copying -/

/-- The elements of type `src` in `b` as elements of type `dst`. -/
def convert (casts : Casts) (src dst : DType) (b : Bytes) : Bytes :=
  if src = dst then b
  else table (b.length / src.itemSize) fun i =>
    casts.cast src dst (window b (i * src.itemSize) src.itemSize)

/-- An element as one of another type. -/
lemma length_cast_window (casts : Casts) (dst : DType) {src : DType} {b : Bytes} {n i : ℕ}
    (h : b.length = n * src.itemSize) (hi : i < n) :
    (casts.cast src dst (window b (i * src.itemSize) src.itemSize)).length = dst.itemSize := by
  refine casts.length_cast _ _ _ (length_window ?_)
  have hmul : (i + 1) * src.itemSize ≤ n * src.itemSize := Nat.mul_le_mul_right _ hi
  rw [h]
  linarith [add_mul i 1 src.itemSize]

lemma length_convert (casts : Casts) (src dst : DType) {b : Bytes} {n : ℕ}
    (h : b.length = n * src.itemSize) : (convert casts src dst b).length = n * dst.itemSize := by
  unfold convert
  split_ifs with heq
  · rw [h, heq]
  · have hdiv : b.length / src.itemSize = n := by
      rw [h, Nat.mul_div_cancel _ src.itemSize_pos]
    rw [hdiv]
    exact length_table fun i hi => length_cast_window casts dst h hi

/-- Each element is converted on its own. -/
lemma window_convert (casts : Casts) {src dst : DType} (hne : src ≠ dst) {b : Bytes} {n i : ℕ}
    (hlen : b.length = n * src.itemSize) (hi : i < n) :
    window (convert casts src dst b) (i * dst.itemSize) dst.itemSize =
      casts.cast src dst (window b (i * src.itemSize) src.itemSize) := by
  have hdiv : b.length / src.itemSize = n := by
    rw [hlen, Nat.mul_div_cancel _ src.itemSize_pos]
  have hlength (j : ℕ) (hj : j < n) := length_cast_window casts dst hlen hj
  have hrow := window_table hlength hi (Nat.le_of_eq (Nat.zero_add dst.itemSize))
  have hself := window_zero_length (casts.cast src dst (window b (i * src.itemSize) src.itemSize))
  rw [hlength i hi] at hself
  rw [convert, if_neg hne, hdiv, ← add_zero (i * dst.itemSize), hrow, hself]

/-- A tensor of the first shape can be broadcast to the second one; both have the same number of
dimensions. -/
def Broadcastable : List ℕ → List ℕ → Bool
  | [], [] => true
  | m :: ss, n :: ns => (m = n || m = 1) && Broadcastable ss ns
  | _, _ => false

/-- Broadcast: a dimension of size 1 is repeated. -/
def expand (item : ℕ) : List ℕ → List ℕ → Bytes → Bytes
  | m :: ss, n :: ns, b =>
    table n fun i =>
      expand item ss ns
        (window b ((if m = n then i else 0) * (ss.prod * item)) (ss.prod * item))
  | _, _, b => b

lemma length_expand {item : ℕ} {ss ns : List ℕ} (h : Broadcastable ss ns = true) {b : Bytes}
    (hb : b.length = ss.prod * item) : (expand item ss ns b).length = ns.prod * item := by
  induction ss generalizing ns b with
  | nil =>
    cases ns with
    | nil => exact hb
    | cons n ns => cases h
  | cons m ss ih =>
    cases ns with
    | nil => cases h
    | cons n ns =>
      simp only [Broadcastable, Bool.and_eq_true, Bool.or_eq_true, decide_eq_true_eq] at h
      rw [expand, List.prod_cons, mul_assoc]
      refine length_table fun i hi => ih h.2 (length_window ?_)
      have hrow : (if m = n then i else 0) + 1 ≤ m := by
        split_ifs with hmn
        · omega
        · have := h.1.resolve_left hmn
          omega
      have hmul := Nat.mul_le_mul_right (ss.prod * item) hrow
      rw [hb, List.prod_cons, mul_assoc]
      linarith [add_mul (if m = n then i else 0) 1 (ss.prod * item)]

/-- A shape with dimensions of size 1 in front, up to a number of dimensions. -/
def padShape (rank : ℕ) (s : List ℕ) : List ℕ :=
  List.replicate (rank - s.length) 1 ++ s

@[simp] lemma prod_padShape (rank : ℕ) (s : List ℕ) : (padShape rank s).prod = s.prod := by
  simp [padShape]

/-- The bytes that `copy_` puts into a tensor of the given type and shape, `none` if the shapes
do not match. -/
def copyData (casts : Casts) (src : Tensor) (dtype : DType) (shape : List ℕ) : Option Bytes :=
  if src.shape = shape then some (convert casts src.dtype dtype src.data)
  else if Broadcastable (padShape shape.length src.shape) shape then
    some (expand dtype.itemSize (padShape shape.length src.shape) shape
      (convert casts src.dtype dtype src.data))
  else none

lemma length_copyData {casts : Casts} {src : Tensor} {dtype : DType} {shape : List ℕ}
    {b : Bytes} (h : copyData casts src dtype shape = some b) :
    b.length = shape.prod * dtype.itemSize := by
  have hconvert := length_convert casts src.dtype dtype src.length_data
  unfold copyData at h
  split_ifs at h with hshape hbroad
  · rw [← Option.some.inj h, hconvert, hshape]
  · rw [← Option.some.inj h]
    exact length_expand hbroad (by rw [hconvert, prod_padShape])

/-- A tensor of the same type and shape is copied bit for bit. -/
lemma copyData_self (casts : Casts) (src : Tensor) :
    copyData casts src src.dtype src.shape = some src.data := by
  simp [copyData, convert]

/-- What `copy_` makes of the tensor in a tensor of this type and shape. -/
def copied (casts : Casts) (src : Tensor) (dtype : DType) (shape : List ℕ) : Option Tensor :=
  match h : copyData casts src dtype shape with
  | none => none
  | some d => some ⟨dtype, shape, d, length_copyData h⟩

lemma copied_eq_some_iff {casts : Casts} {src t : Tensor} {dtype : DType} {shape : List ℕ} :
    src.copied casts dtype shape = some t ↔
      t.dtype = dtype ∧ t.shape = shape ∧ copyData casts src dtype shape = some t.data := by
  unfold copied
  split
  · next h => simp [h]
  · next d h =>
    rw [Option.some.injEq]
    constructor
    · rintro rfl
      exact ⟨rfl, rfl, h⟩
    · rintro ⟨hdtype, hshape, hdata⟩
      exact Tensor.ext hdtype.symm hshape.symm (Option.some.inj (h.symm.trans hdata))

/-- A tensor is copied as it is into one of its type and shape. -/
lemma copied_self (casts : Casts) (src : Tensor) :
    src.copied casts src.dtype src.shape = some src :=
  copied_eq_some_iff.mpr ⟨rfl, rfl, copyData_self casts src⟩

/-- The tensor with its elements as elements of another type. -/
def converted (casts : Casts) (dtype : DType) (t : Tensor) : Tensor :=
  ⟨dtype, t.shape, convert casts t.dtype dtype t.data, length_convert casts _ _ t.length_data⟩

/-- Nothing is converted to the type that the tensor has. -/
lemma converted_self (casts : Casts) (t : Tensor) : t.converted casts t.dtype = t := by
  refine Tensor.ext rfl rfl ?_
  simp only [converted, convert, if_pos]

/-- `t[i, j, …].copy_(src)`. -/
def assign (casts : Casts) (t : Tensor) (path : List ℕ) (src : Tensor) : Except Exc Tensor :=
  match h : locate t.shape path with
  | none => .error .indexError
  | some (o, s) =>
    match hd : copyData casts src t.dtype s with
    | none => .error (.runtimeError "")
    | some d => .ok ⟨t.dtype, t.shape, splice t.data (o * t.dtype.itemSize) d, by
        rw [length_splice, t.length_data]
        rw [length_copyData hd]
        exact mul_add_mul_le h⟩

/-- What copying into a part does. -/
lemma assign_eq_ok_iff {casts : Casts} {t src u : Tensor} {path : List ℕ} :
    t.assign casts path src = .ok u ↔
      ∃ o s d, locate t.shape path = some (o, s) ∧ copyData casts src t.dtype s = some d ∧
        u.dtype = t.dtype ∧ u.shape = t.shape ∧
        u.data = splice t.data (o * t.dtype.itemSize) d := by
  unfold assign
  split
  · next h => simp [h]
  · next o s h =>
    split
    · next hd =>
      constructor
      · intro h'
        cases h'
      · rintro ⟨o', s', d', h', hd', -⟩
        rw [h] at h'
        obtain ⟨rfl, rfl⟩ := Prod.mk.inj (Option.some.inj h')
        rw [hd] at hd'
        cases hd'
    · next d hd =>
      rw [Except.ok.injEq]
      constructor
      · rintro rfl
        exact ⟨o, s, d, h, hd, rfl, rfl, rfl⟩
      · rintro ⟨o', s', d', h', hd', hdtype, hshape, hdata⟩
        rw [h] at h'
        obtain ⟨rfl, rfl⟩ := Prod.mk.inj (Option.some.inj h')
        rw [hd] at hd'
        obtain rfl := Option.some.inj hd'
        exact Tensor.ext hdtype.symm hshape.symm hdata.symm

section Assign

variable {casts : Casts} {t src u : Tensor} {path : List ℕ}

/-- Copying changes neither the type nor the shape. -/
lemma assign_type (h : t.assign casts path src = .ok u) :
    u.dtype = t.dtype ∧ u.shape = t.shape := by
  obtain ⟨o, s, d, -, -, hdtype, hshape, -⟩ := assign_eq_ok_iff.mp h
  exact ⟨hdtype, hshape⟩

/-- A part that was copied into holds what `copy_` makes of the source. -/
lemma select_assign_copied (h : t.assign casts path src = .ok u) :
    ∃ o part, locate t.shape path = some (o, part.shape) ∧ u.select path = .ok part ∧
      src.copied casts t.dtype part.shape = some part := by
  obtain ⟨o, s, d, hloc, hcopy, hut, hus, hud⟩ := assign_eq_ok_iff.mp h
  have hlen := length_copyData hcopy
  have hfit := mul_add_mul_le hloc
  rw [← hlen] at hfit
  refine ⟨o, ⟨t.dtype, s, d, hlen⟩, hloc, ?_, copied_eq_some_iff.mpr ⟨rfl, rfl, hcopy⟩⟩
  refine select_eq_ok_iff.mpr ⟨o, by rw [hus, hloc], hut.symm, ?_⟩
  rw [part, hud, hut, ← hlen]
  exact (window_splice_self hfit).symm

/-- A part that was copied into from a tensor of its shape holds its elements. -/
lemma select_assign (h : t.assign casts path src = .ok u)
    (hshape : ∀ o s, locate t.shape path = some (o, s) → src.shape = s) :
    u.select path = .ok (src.converted casts t.dtype) := by
  obtain ⟨o, part, hloc, hpart, hcopied⟩ := select_assign_copied h
  obtain ⟨hdtype, -, hdata⟩ := copied_eq_some_iff.mp hcopied
  have hs := hshape o part.shape hloc
  rw [copyData, if_pos hs] at hdata
  rw [hpart]
  exact congrArg Except.ok (Tensor.ext hdtype hs.symm (Option.some.inj hdata).symm)

/-- A part that was copied into from a tensor of its type and shape equals this tensor. -/
lemma select_assign_self (h : t.assign casts path src = .ok u) (hdtype : src.dtype = t.dtype)
    (hshape : ∀ o s, locate t.shape path = some (o, s) → src.shape = s) :
    u.select path = .ok src := by
  rw [select_assign h hshape, ← hdtype, converted_self]

/-- The other parts with indices of the same number stay what they were. -/
lemma select_assign_of_ne (h : t.assign casts path src = .ok u) (path' : List ℕ)
    (hlen : path'.length = path.length) (hne : path' ≠ path) :
    u.select path' = t.select path' := by
  obtain ⟨o, s, d, hloc, hcopy, hut, hus, hud⟩ := assign_eq_ok_iff.mp h
  have hiff (v : Tensor) : u.select path' = .ok v ↔ t.select path' = .ok v := by
    rw [select_eq_ok_iff, select_eq_ok_iff, hus, hut]
    refine exists_congr fun o' => and_congr_right fun hloc' => and_congr_right fun _ => ?_
    obtain ⟨hs, hapart⟩ := locate_apart hlen hloc' hloc
    have hd := length_copyData hcopy
    have hfit := mul_add_mul_le hloc
    have hwindow : u.part o' v.shape = t.part o' v.shape := by
      rw [part, part, hud, hut]
      refine window_splice_of_apart (by rwa [hd]) ?_
      rw [hd, ← add_mul, ← add_mul]
      exact (hapart hne).imp (Nat.mul_le_mul_right _) (Nat.mul_le_mul_right _)
    rw [hwindow]
  cases ht : t.select path' with
  | ok v => exact (hiff v).mpr ht
  | error e =>
    cases hu : u.select path' with
    | ok v => rw [(hiff v).mp hu] at ht; cases ht
    | error e' =>
      rw [select_error ht, select_error hu]

end Assign

/-! ## The second dimension -/

/-- `t[i, p]` of a tensor with at least three dimensions, as bytes: what it holds in row `i` at
position `p`. -/
def cell (t : Tensor) (i p : ℕ) : Bytes :=
  let w := (t.shape.drop 2).prod * t.dtype.itemSize
  window t.data (i * (t.shape.getD 1 0 * w) + p * w) w

/-- A cell of a tensor all of whose bytes are `b`. -/
lemma cell_filled (dtype : DType) {a n i p : ℕ} (rest : List ℕ) (hi : i < a) (hp : p < n)
    (b : UInt8) : (filled dtype (a :: n :: rest) b).cell i p =
      List.replicate (rest.prod * dtype.itemSize) b := by
  simp only [cell, filled, List.drop_succ_cons, List.drop_zero, List.getD_cons_succ,
    List.getD_cons_zero]
  refine window_replicate ?_ b
  rw [List.prod_cons, List.prod_cons, mul_assoc, mul_assoc]
  generalize rest.prod * dtype.itemSize = w
  have hrow : (i + 1) * (n * w) ≤ a * (n * w) := Nat.mul_le_mul_right _ hi
  have hpos : (p + 1) * w ≤ n * w := Nat.mul_le_mul_right _ hp
  linarith [add_mul i 1 (n * w), add_mul p 1 w]

/-- The number of positions in `start:stop` of `n` positions. -/
def sliceLength (n start stop : ℕ) : ℕ :=
  min stop n - min start n

lemma prod_mul (a n : ℕ) (rest : List ℕ) (k : ℕ) :
    (a :: n :: rest).prod * k = a * (n * (rest.prod * k)) := by
  rw [List.prod_cons, List.prod_cons, mul_assoc, mul_assoc]

/-- Positions of a slice lie within their row. -/
lemma slice_le {a n i w : ℕ} (start stop : ℕ) (hi : i < a) :
    i * (n * w) + min start n * w + sliceLength n start stop * w ≤ a * (n * w) := by
  have hrow : (i + 1) * (n * w) ≤ a * (n * w) := Nat.mul_le_mul_right _ hi
  have hpos : (min start n + sliceLength n start stop) * w ≤ n * w :=
    Nat.mul_le_mul_right _ (by unfold sliceLength; omega)
  linarith [add_mul i 1 (n * w), add_mul (min start n) (sliceLength n start stop) w]

/-- A row of a tensor has the length of a row. -/
lemma length_row {b : Bytes} {a w i : ℕ} (hlen : b.length = a * w) (hi : i < a) :
    (window b (i * w) w).length = w := by
  refine length_window ?_
  have hrow : (i + 1) * w ≤ a * w := Nat.mul_le_mul_right _ hi
  linarith [add_mul i 1 w]

/-- `t[:, start:stop, :]`. -/
def narrow (t : Tensor) (start stop : ℕ) : Except Exc Tensor :=
  match h : t.shape with
  | a :: n :: r :: rest =>
    .ok ⟨t.dtype, a :: sliceLength n start stop :: r :: rest,
      table a fun i =>
        window t.data (i * (n * ((r :: rest).prod * t.dtype.itemSize)) +
            min start n * ((r :: rest).prod * t.dtype.itemSize))
          (sliceLength n start stop * ((r :: rest).prod * t.dtype.itemSize)), by
        have hlen := t.length_data
        rw [h, prod_mul] at hlen
        rw [prod_mul]
        exact length_table fun i hi => length_window (hlen ▸ slice_le start stop hi)⟩
  | _ => .error .indexError

/-- `t[:, start:stop, :].copy_(src)`. -/
def assignNarrow (casts : Casts) (t : Tensor) (start stop : ℕ) (src : Tensor) :
    Except Exc Tensor :=
  match h : t.shape with
  | a :: n :: r :: rest =>
    match hd : copyData casts src t.dtype (a :: sliceLength n start stop :: r :: rest) with
    | none => .error (.runtimeError "")
    | some d =>
      .ok ⟨t.dtype, t.shape,
        table a fun i =>
          splice (window t.data (i * (n * ((r :: rest).prod * t.dtype.itemSize)))
              (n * ((r :: rest).prod * t.dtype.itemSize)))
            (min start n * ((r :: rest).prod * t.dtype.itemSize))
            (window d (i * (sliceLength n start stop * ((r :: rest).prod * t.dtype.itemSize)))
              (sliceLength n start stop * ((r :: rest).prod * t.dtype.itemSize))), by
          have hlen := t.length_data
          have hdlen := length_copyData hd
          rw [h, prod_mul] at hlen ⊢
          rw [prod_mul] at hdlen
          refine length_table fun i hi => ?_
          have hrow := length_row hlen hi
          have hsrc := length_row hdlen hi
          rw [length_splice, hrow]
          rw [hrow, hsrc, ← add_mul]
          exact Nat.mul_le_mul_right _ (by unfold sliceLength; omega)⟩
  | _ => .error .indexError

section AssignNarrow

variable {casts : Casts} {t src u : Tensor} {a n : ℕ} {rest : List ℕ} {start stop : ℕ}

/-- What copying into a slice of the second dimension does. -/
lemma assignNarrow_eq_ok (h : t.assignNarrow casts start stop src = .ok u)
    (hshape : t.shape = a :: n :: rest) :
    u.dtype = t.dtype ∧ u.shape = t.shape ∧
      ∃ d, copyData casts src t.dtype (a :: sliceLength n start stop :: rest) = some d ∧
        u.data = table a fun i =>
          splice (window t.data (i * (n * (rest.prod * t.dtype.itemSize)))
              (n * (rest.prod * t.dtype.itemSize)))
            (min start n * (rest.prod * t.dtype.itemSize))
            (window d (i * (sliceLength n start stop * (rest.prod * t.dtype.itemSize)))
              (sliceLength n start stop * (rest.prod * t.dtype.itemSize))) := by
  unfold assignNarrow at h
  split at h
  · next a' n' r rest' hshape' =>
    rw [hshape, List.cons.injEq, List.cons.injEq] at hshape'
    obtain ⟨rfl, rfl, rfl⟩ := hshape'
    split at h
    · cases h
    · next d hd =>
      obtain rfl := Except.ok.inj h
      exact ⟨rfl, rfl, d, hd, rfl⟩
  · cases h

/-- Copying into a slice keeps the shape, which has three dimensions or more. -/
lemma assignNarrow_shape (h : t.assignNarrow casts start stop src = .ok u) :
    u.shape = t.shape ∧ ∃ a n r rest, t.shape = a :: n :: r :: rest := by
  have hcall := h
  unfold assignNarrow at h
  split at h
  · next a n r rest hshape => exact ⟨(assignNarrow_eq_ok hcall hshape).2.1, a, n, r, rest, hshape⟩
  · cases h

/-- A slice that lies within the positions. -/
lemma sliceLength_of_le {n start k : ℕ} (h : start + k ≤ n) :
    sliceLength n start (start + k) = k := by
  unfold sliceLength
  omega

/-- A tensor of the slice's shape can be copied. -/
lemma assignNarrow_succeeds (casts : Casts) {r : ℕ} (hshape : t.shape = a :: n :: r :: rest)
    (hsrc : src.shape = a :: sliceLength n start stop :: r :: rest) :
    ∃ u, t.assignNarrow casts start stop src = .ok u := by
  unfold assignNarrow
  split
  · next a' n' r' rest' hshape' =>
    rw [hshape, List.cons.injEq, List.cons.injEq, List.cons.injEq] at hshape'
    obtain ⟨rfl, rfl, rfl, rfl⟩ := hshape'
    split
    · next hnone => simp [copyData, hsrc] at hnone
    · exact ⟨_, rfl⟩
  · next hno => exact absurd hshape (hno a n r rest)

/-- Copying into a slice writes a part of what is copied over a part of each row. -/
lemma exists_row_of_assignNarrow (h : t.assignNarrow casts start stop src = .ok u)
    (hshape : t.shape = a :: n :: rest) {i p : ℕ} (hi : i < a) (hp : p < n) :
    ∃ d row part, copyData casts src t.dtype (a :: sliceLength n start stop :: rest) = some d ∧
      part = window d (i * (sliceLength n start stop * (rest.prod * t.dtype.itemSize)))
        (sliceLength n start stop * (rest.prod * t.dtype.itemSize)) ∧
      part.length = sliceLength n start stop * (rest.prod * t.dtype.itemSize) ∧
      min start n * (rest.prod * t.dtype.itemSize) + part.length ≤ row.length ∧
      t.cell i p = window row (p * (rest.prod * t.dtype.itemSize)) (rest.prod * t.dtype.itemSize) ∧
      u.cell i p = window (splice row (min start n * (rest.prod * t.dtype.itemSize)) part)
        (p * (rest.prod * t.dtype.itemSize)) (rest.prod * t.dtype.itemSize) := by
  obtain ⟨hut, hus, d, hcopy, hdata⟩ := assignNarrow_eq_ok h hshape
  have hlen := t.length_data
  have hdlen := length_copyData hcopy
  rw [hshape, prod_mul] at hlen
  rw [prod_mul] at hdlen
  simp only [cell, hus, hut, hshape, List.drop_succ_cons, List.drop_zero, List.getD_cons_succ,
    List.getD_cons_zero, hdata]
  generalize rest.prod * t.dtype.itemSize = w at *
  have hlo : min start n + sliceLength n start stop ≤ n := by
    unfold sliceLength
    omega
  have hfit (j : ℕ) (hj : j < a) :
      min start n * w +
        (window d (j * (sliceLength n start stop * w)) (sliceLength n start stop * w)).length
        ≤ (window t.data (j * (n * w)) (n * w)).length := by
    rw [length_row hlen hj, length_row hdlen hj, ← add_mul]
    exact Nat.mul_le_mul_right _ hlo
  have hpw : p * w + w ≤ n * w := by
    have := Nat.mul_le_mul_right w hp
    linarith [add_mul p 1 w]
  refine ⟨d, window t.data (i * (n * w)) (n * w), _, hcopy, rfl, length_row hdlen hi, hfit i hi,
    (window_window _ hpw).symm, ?_⟩
  rw [window_table (fun j hj => by rw [length_splice (hfit j hj), length_row hlen hj]) hi hpw]

/-- The cells outside of the slice stay as they were, whatever is copied. -/
lemma cell_assignNarrow_of_apart (h : t.assignNarrow casts start stop src = .ok u)
    (hshape : t.shape = a :: n :: rest) {i p : ℕ} (hi : i < a) (hp : p < n)
    (hout : ¬ (min start n ≤ p ∧ p < min start n + sliceLength n start stop)) :
    u.cell i p = t.cell i p := by
  obtain ⟨d, row, part, -, -, hpart, hfit, htcell, hucell⟩ :=
    exists_row_of_assignNarrow h hshape hi hp
  rw [hucell, htcell, window_splice_of_apart hfit]
  rw [hpart, ← add_mul]
  rcases Nat.lt_or_ge p (min start n) with hlt | hge
  · left
    have := Nat.mul_le_mul_right (rest.prod * t.dtype.itemSize) hlt
    linarith [add_mul p 1 (rest.prod * t.dtype.itemSize)]
  · right
    exact Nat.mul_le_mul_right _ (by omega)

/-- The cells inside of the slice are those of what `copy_` makes of the source. -/
lemma cell_assignNarrow_within (h : t.assignNarrow casts start stop src = .ok u)
    (hshape : t.shape = a :: n :: rest) :
    ∃ c, src.copied casts t.dtype (a :: sliceLength n start stop :: rest) = some c ∧
      ∀ i < a, ∀ p < n, min start n ≤ p → p < min start n + sliceLength n start stop →
        u.cell i p = c.cell i (p - min start n) := by
  obtain ⟨-, -, d, hcopy, -⟩ := assignNarrow_eq_ok h hshape
  refine ⟨⟨t.dtype, _, d, length_copyData hcopy⟩, copied_eq_some_iff.mpr ⟨rfl, rfl, hcopy⟩, ?_⟩
  intro i hi p hp hlow hhigh
  obtain ⟨d', row, part, hcopy', hwindow, hpart, hfit, -, hucell⟩ :=
    exists_row_of_assignNarrow h hshape hi hp
  obtain rfl := Option.some.inj (hcopy.symm.trans hcopy')
  rw [hucell]
  simp only [cell, List.drop_succ_cons, List.drop_zero, List.getD_cons_succ, List.getD_cons_zero]
  generalize rest.prod * t.dtype.itemSize = w at *
  obtain ⟨q, rfl⟩ := Nat.exists_eq_add_of_le hlow
  have hq : q * w + w ≤ sliceLength n start stop * w := by
    have := Nat.mul_le_mul_right w (show q + 1 ≤ sliceLength n start stop by omega)
    linarith [add_mul q 1 w]
  rw [add_mul, window_splice_within hfit (by rw [hpart]; exact hq), hwindow,
    window_window _ hq, Nat.add_sub_cancel_left]

/-- The cells after copying a tensor of the slice's type and shape: inside the slice those of the
source, outside those from before. -/
lemma cell_assignNarrow (h : t.assignNarrow casts start stop src = .ok u)
    (hshape : t.shape = a :: n :: rest)
    (hsrc : src.shape = a :: sliceLength n start stop :: rest) (hdtype : src.dtype = t.dtype)
    {i p : ℕ} (hi : i < a) (hp : p < n) :
    u.cell i p =
      if min start n ≤ p ∧ p < min start n + sliceLength n start stop
      then src.cell i (p - min start n) else t.cell i p := by
  split_ifs with hin
  · obtain ⟨c, hcopied, hcells⟩ := cell_assignNarrow_within h hshape
    rw [← hsrc, ← hdtype, copied_self] at hcopied
    obtain rfl := Option.some.inj hcopied
    exact hcells i hi p hp hin.1 hin.2
  · exact cell_assignNarrow_of_apart h hshape hi hp hin

end AssignNarrow

end Tensor

end KacheDB
