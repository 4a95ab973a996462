import Mathlib.Algebra.Group.Nat.Defs
import DeviceTensor.Proofs.Tensor.Work
set_option autoImplicit false

/-!
# Valid tensors

The block of a tensor lies on the tensor's device and has room for exactly the elements of its
shape; a tensor without a block has no dimensions; only a matrix can be stored transposed.  Every
operation that makes or changes a tensor gives a valid one, and accounts for its handle:
`Tensor.Yields`.
-/

namespace DeviceTensor

open DeviceTensor.Action

/-! ## Counts -/

theorem Size.eq_of_foldlM_mul {dims : List Nat} {a n : Nat}
    (h : dims.foldlM Size.mul a = .ok n) : n = a * dims.prod := by
  induction dims generalizing a with
  | nil =>
    cases h
    simp
  | cons k dims ih =>
    obtain ⟨m, hm, h⟩ := Except.bind_eq_ok_iff.mp h
    obtain ⟨-, rfl⟩ := Size.mul_eq_ok_iff.mp hm
    rw [ih h, List.prod_cons, Nat.mul_assoc]

theorem Fault.ofTrap_eq_ok_iff {α : Type} {x : Except Trap α} {a : α} :
    Fault.ofTrap x = .ok a ↔ x = .ok a := by
  cases x with
  | error t =>
    constructor <;> intro h <;> cases h
  | ok b =>
    constructor <;> intro h <;> cases h <;> rfl

/-- A product that does not trap is exact. -/
theorem Size.eq_prod_of_product {dims : List Nat} {n : Nat} (h : Size.product dims = .ok n) :
    n = dims.prod := by
  rw [Size.eq_of_foldlM_mul h, Nat.one_mul]

namespace Shape

theorem count_eq (shape : Shape) : shape.count = Fault.ofTrap (Size.product shape) := by
  simp [count, product]

theorem eq_prod_of_count {shape : Shape} {n : Nat} (h : shape.count = .ok n) :
    n = shape.prod := by
  rw [count_eq] at h
  exact Size.eq_prod_of_product (Fault.ofTrap_eq_ok_iff.mp h)

theorem of_byteSize {shape : Shape} {d : ElemType} {n : Nat} (h : shape.byteSize d = .ok n) :
    shape.count = .ok shape.prod ∧ n = shape.prod * d.width ∧ n < Size.limit := by
  obtain ⟨m, hm, h⟩ := Except.bind_eq_ok_iff.mp h
  obtain rfl := eq_prod_of_count hm
  obtain ⟨hlt, rfl⟩ := Size.mul_eq_ok_iff.mp (Fault.ofTrap_eq_ok_iff.mp h)
  exact ⟨hm, rfl, hlt⟩

/-- The dimensions of a matrix whose elements can be counted in one order. -/
theorem count_of_matrix {rows cols : Nat} (hr : rows < Size.limit)
    (h : rows * cols < Size.limit) : count [rows, cols] = .ok (rows * cols) := by
  have hone : Size.mul 1 rows = .ok rows := by
    rw [Size.mul_of_lt (by rwa [Nat.one_mul]), Nat.one_mul]
  rw [count_eq]
  unfold Size.product
  rw [List.foldlM_cons, hone]
  change Fault.ofTrap (List.foldlM Size.mul rows [cols]) = _
  rw [List.foldlM_cons, Size.mul_of_lt h]
  rfl

end Shape

/-! ## Validity -/

namespace Tensor

/-- The handle of the tensor. -/
def held (t : Tensor) : List BlockId := t.block.toList

theorem held_of_block {t : Tensor} {b : BlockId} (hb : t.block = some b) : t.held = [b] := by
  unfold held
  rw [hb]
  rfl

/-- The block lies on the device of the tensor and has room for exactly its elements. -/
structure Fills (t : Tensor) (b : BlockId) (s : Store) : Prop where
  lt : b < s.blocks.size
  place : (s.block b).device = t.device
  size : (s.block b).size = t.shape.prod * t.dtype.width
  small : t.shape.prod * t.dtype.width < Size.limit
  /-- The two dimensions of a matrix may have been exchanged since they were multiplied. -/
  counted : t.rank ≠ 2 → t.shape.count = .ok t.shape.prod

/-- The tensor describes its block. -/
structure Valid (t : Tensor) (s : Store) : Prop where
  filled : ∀ b, t.block = some b → t.Fills b s
  bare : t.block = none → t.shape = [] ∧ t.transposed = false
  rank : t.transposed = true → t.rank = 2

theorem Fills.mono {t : Tensor} {b : BlockId} {s s' : Store} (h : t.Fills b s)
    (hs : s.Extends s') : t.Fills b s' where
  lt := hs.lt h.lt
  place := (hs.place b h.lt).trans h.place
  size := (hs.size b h.lt).trans h.size
  small := h.small
  counted := h.counted

theorem Valid.mono {t : Tensor} {s s' : Store} (h : t.Valid s) (hs : s.Extends s') :
    t.Valid s' where
  filled b hb := (h.filled b hb).mono hs
  bare := h.bare
  rank := h.rank

/-- A tensor that stores its elements row by row is valid if its block has room for them. -/
theorem Fills.valid {t : Tensor} {b : BlockId} {s : Store} (h : t.Fills b s)
    (hb : t.block = some b) (ht : t.transposed = true → t.rank = 2) : t.Valid s where
  filled c hc := by
    rw [hb] at hc
    cases hc
    exact h
  bare hn := by
    rw [hb] at hn
    cases hn
  rank := ht

/-- A tensor without a block is valid if it has the form of one. -/
theorem valid_of_bare {t : Tensor} {s : Store} (hb : t.block = none)
    (h : t.shape = [] ∧ t.transposed = false) : t.Valid s where
  filled b hsome := by
    rw [hb] at hsome
    cases hsome
  bare _ := h
  rank ht := by
    rw [h.2] at ht
    cases ht

theorem Fills.count {t : Tensor} {b : BlockId} {s : Store} (h : t.Fills b s)
    (hb : t.block = some b) : t.count s = t.shape.prod := by
  unfold Tensor.count byteSize
  rw [hb]
  dsimp only
  rw [h.size, Nat.mul_div_cancel _ t.dtype.width_pos]

theorem matrix_of_rank {t : Tensor} (h : t.rank = 2) : ∃ rows cols, t.shape = [rows, cols] := by
  unfold rank at h
  match hs : t.shape with
  | [rows, cols] => exact ⟨rows, cols, rfl⟩
  | [] => simp [hs] at h
  | [_] => simp [hs] at h
  | _ :: _ :: _ :: _ => simp [hs] at h

/-- Rows and columns depend on the shape alone. -/
theorem asMatrix_congr {t t' : Tensor} (h : t'.shape = t.shape) : t'.asMatrix = t.asMatrix := by
  unfold asMatrix
  rw [h]

/-- If its dimensions are sizes, the elements of the tensor can be counted. -/
theorem Fills.product_eq {t : Tensor} {b : BlockId} {s : Store} (h : t.Fills b s)
    (hdims : ∀ n ∈ t.shape, n < Size.limit) : t.shape.product 0 0 = .ok t.shape.prod := by
  by_cases hr : t.rank = 2
  · obtain ⟨rows, cols, hshape⟩ := matrix_of_rank hr
    have hsmall : rows * cols * t.dtype.width < Size.limit := by
      have hprod := h.small
      rw [hshape] at hprod
      simpa using hprod
    have hlt : rows * cols < Size.limit :=
      Nat.lt_of_le_of_lt (Nat.le_mul_of_pos_right _ t.dtype.width_pos) hsmall
    have hcount := Shape.count_of_matrix (hdims rows (by simp [hshape])) hlt
    have hprod : [rows, cols].prod = rows * cols := by simp
    rw [hshape, hprod]
    exact hcount
  · exact h.counted hr

/-! ## New tensors -/

/-- The action gives a valid tensor with a handle beside those of `hs`; if it fails, the handles are
those of `kept`. -/
def Yields (x : Action Fault Tensor) (s : Store) (hs kept : List BlockId) : Prop :=
  x.Ends s (fun t s' => s.Extends s' ∧ t.Valid s' ∧ s'.Holds (t.held ++ hs))
    (fun _ s' => s.Extends s' ∧ s'.Holds kept)

variable {s : Store} {hs : List BlockId}

/-- A new tensor fills its new block. -/
theorem fills_acquire {shape : Shape} {dtype : ElemType} {n : Nat}
    (h : shape.byteSize dtype = .ok n) (d : DeviceId) (transposed : Bool) (s : Store) :
    (Tensor.mk shape dtype transposed d (some s.blocks.size)).Fills s.blocks.size
      (s.acquire d n).2 := by
  obtain ⟨hcount, hn, hlt⟩ := Shape.of_byteSize h
  constructor
  · simp
  · rw [Store.block_acquire_self]
  · rw [Store.block_acquire_self]
    exact hn
  · rw [← hn]
    exact hlt
  · intro _
    exact hcount

theorem onDevice_yields (shape : Shape) (d : DeviceId) (dtype : ElemType) (hh : s.Holds hs) :
    Yields (onDevice shape d dtype) s hs hs := by
  simp only [Yields, onDevice, ends_bind, ends_ofExcept, ends_changing, ends_pure]
  constructor
  · intro n hn
    refine ⟨s.extends_acquire d n, ?_, hh.acquire d n⟩
    exact (fills_acquire hn d false s).valid rfl (fun ht => by cases ht)
  · intro e _
    exact ⟨.refl s, hh⟩

theorem onDevice_eq (shape : Shape) (d : DeviceId) (dtype : ElemType) (s : Store) :
    onDevice shape d dtype s =
      match shape.byteSize dtype with
      | .ok n => (.ok ⟨shape, dtype, false, d, some s.blocks.size⟩, (s.acquire d n).2)
      | .error e => (.error e, s) := by
  unfold onDevice
  rw [bind_apply]
  cases h : shape.byteSize dtype with
  | ok n => rfl
  | error e => rfl

theorem blankLike_eq (t : Tensor) (s : Store) :
    t.blankLike s =
      match t.shape.byteSize t.dtype with
      | .ok n => (.ok { t with block := some s.blocks.size }, (s.acquire t.device n).2)
      | .error e => (.error e, s) := by
  unfold blankLike
  rw [bind_apply, onDevice_eq]
  cases h : t.shape.byteSize t.dtype with
  | ok n => rfl
  | error e => rfl

theorem blankLike_ends {t : Tensor} (ht : t.Valid s) (hh : s.Holds hs) :
    t.blankLike.Ends s
      (fun out s' => out.transposed = t.transposed ∧ s.Extends s' ∧ out.Valid s' ∧
        s'.Holds (out.held ++ hs))
      (fun _ s' => s.Extends s' ∧ s'.Holds hs) := by
  unfold Ends
  rw [blankLike_eq]
  cases hn : t.shape.byteSize t.dtype with
  | ok n =>
    refine ⟨rfl, s.extends_acquire t.device n, ?_, hh.acquire t.device n⟩
    exact (fills_acquire hn t.device t.transposed s).valid rfl ht.rank
  | error e => exact ⟨.refl s, hh⟩

theorem blankLike_yields {t : Tensor} (ht : t.Valid s) (hh : s.Holds hs) :
    Yields t.blankLike s hs hs :=
  (blankLike_ends ht hh).mono (fun _ _ h => h.2) fun _ _ h => h

/-! ## Handles of tensors -/

theorem retain_of_block {t : Tensor} {b : BlockId} (hb : t.block = some b) (s : Store) :
    t.retain s = s.retain b := by
  unfold retain
  rw [hb]

theorem release_of_block {t : Tensor} {b : BlockId} (hb : t.block = some b) (s : Store) :
    t.release s = s.release b := by
  unfold release
  rw [hb]

theorem extends_release (t : Tensor) (s : Store) : s.Extends (t.release s) := by
  unfold release
  split
  · exact Store.extends_release s _
  · exact .refl s

theorem extends_retain (t : Tensor) (s : Store) : s.Extends (t.retain s) := by
  unfold retain
  split
  · exact Store.extends_retain s _
  · exact .refl s

theorem holds_release {t : Tensor} (h : s.Holds (t.held ++ hs)) : (t.release s).Holds hs := by
  unfold held at h
  unfold release
  cases hb : t.block with
  | none =>
    rw [hb] at h
    exact h
  | some b =>
    rw [hb] at h
    exact Store.Holds.release h

theorem holds_retain {t : Tensor} (h : s.Holds hs) (ht : t.held ⊆ hs) :
    (t.retain s).Holds (t.held ++ hs) := by
  unfold held at *
  unfold retain
  cases hb : t.block with
  | none => exact h
  | some b =>
    rw [hb] at ht
    exact Store.Holds.retain h (ht List.mem_cons_self)

/-- The old block goes, the new one stays. -/
theorem holds_replace {t : Tensor} {b : BlockId} (h : s.Holds (b :: (t.held ++ hs))) :
    (t.release s).Holds (b :: hs) :=
  holds_release (h.perm List.perm_middle.symm)

theorem share_yields {t : Tensor} (hv : t.Valid s) (hh : s.Holds hs) (ht : t.held ⊆ hs) :
    Yields t.share s hs hs := by
  simp only [Yields, share, ends_bind, ends_change, ends_pure]
  exact ⟨t.extends_retain s, hv.mono (t.extends_retain s), holds_retain hh ht⟩

/-- A tensor that is made and then worked on. -/
theorem building_yields {make : Action Fault Tensor} {work : Tensor → Action Fault Unit}
    (hm : Yields make s hs hs) (hw : ∀ t, (work t).Within Store.Keeps) :
    Yields (building make work) s hs hs := by
  simp only [Yields, building, ends_bind, ends_onFailure, ends_pure]
  refine Ends.mono hm ?_ fun e s' h => h
  rintro t s' ⟨he, hv, hh⟩
  refine Ends.mono ((hw t).ends s') ?_ ?_
  · intro _ u hk
    exact ⟨he.trans hk.extend, hv.mono hk.extend, hk.holds _ hh⟩
  · intro _ u hk
    exact ⟨(he.trans hk.extend).trans (t.extends_release u), holds_release (hk.holds _ hh)⟩

end Tensor

end DeviceTensor
